import ClusterAccess.Proofs.Service.Deeds

/-!
# Numbers that are never used twice

Deeds of any kind, one after the other, number users, groups and permissions from one upwards: a
transaction that is not committed, and an insertion that is refused, leave no gap.  What a table
stores under an id has that id, and none is above the counter (`Directory.Counted`).  So the next id
is in use nowhere, and what is inserted takes no other row's place, in a transaction's copy no less
than in the directory itself.

The counters are words of 64 bits, and go on counting in transactions that are not committed.  So
all of this is said of deeds that make fewer than 2^64 things of each kind, whether or not these are
kept.
-/

namespace ClusterAccess

theorem Journal.Bounded.of_sublist {j j' : Journal} (h : j'.Bounded) (hsub : j.Sublist j') :
    j.Bounded := by
  obtain ⟨husers, hgroups, hpermissions⟩ := h
  exact ⟨(hsub.filterMap _).length_le.trans_lt husers,
    (hsub.filterMap _).length_le.trans_lt hgroups,
    (hsub.filterMap _).length_le.trans_lt hpermissions⟩

/-! ## Counters -/

namespace Directory

variable {d : Directory}

/-- `Reaches.invariant_of_bounded` for directories that have grown. -/
theorem Grown.invariant_of_bounded (Inv : Journal → Directory → Prop) (start : Inv [] {})
    (step : ∀ {j : Journal} {d d' : Directory} {change : Option Change},
      Journal.Bounded (j ++ change.toList) → Inv j d → d.Alters change d' →
        Inv (j ++ change.toList) d')
    {j : Journal} (h : d.Grown j) (few : j.Bounded) : Inv j d := by
  induction h with
  | start => exact start
  | step h alters ih => exact step few (ih few.of_append) alters

/-- The counters have counted what was made. -/
theorem Grown.numbered {j : Journal} (h : d.Grown j) (few : j.Bounded) : Numbered j d :=
  h.invariant_of_bounded Numbered ⟨.start, .start, .start⟩
    (fun few h alters => h.issue few alters.handsOut) few

end Directory

/-! ## Rows and counters -/

/-- What is stored under an id has that id, which lies between one and the counter. -/
def Table.CountedBy {κ α : Type} [Key κ] [DecidableEq κ] {key : α → κ} (t : Table κ key)
    (value : κ → UInt64) (last : UInt64) : Prop :=
  ∀ id row, t.find? id = some row → key row = id ∧ 1 ≤ value id ∧ value id ≤ last

namespace Table.CountedBy

variable {κ α : Type} [Key κ] [DecidableEq κ] {key : α → κ} {t : Table κ key} {value : κ → UInt64}
  {last : UInt64}

theorem empty : (Table.empty : Table κ key).CountedBy value last := nofun

theorem erase (h : t.CountedBy value last) (id : κ) : (t.erase id).CountedBy value last := by
  intro id' row hfound
  rw [Table.find?_erase] at hfound
  split at hfound
  · cases hfound
  · exact h id' row hfound

/-- A row in the place of another one. -/
theorem insert (h : t.CountedBy value last) {row old : α} (hold : t.find? (key row) = some old) :
    (t.insert row).CountedBy value last := by
  intro id row' hfound
  rw [Table.find?_insert] at hfound
  split at hfound
  · rename_i hkey
    cases hfound
    exact ⟨hkey, hkey ▸ (h _ _ hold).2⟩
  · exact h id row' hfound

/-- A row under the next id. -/
theorem insert_next (h : t.CountedBy value last) (hlt : last < last + 1) {row : α}
    (hrow : value (key row) = last + 1) : (t.insert row).CountedBy value (last + 1) := by
  intro id row' hfound
  rw [Table.find?_insert] at hfound
  split at hfound
  · rename_i hkey
    cases hfound
    refine ⟨hkey, ?_, ?_⟩
    · rw [← hkey, hrow]
      exact UInt64.le_iff_toNat_le.mpr (Nat.zero_lt_of_lt (UInt64.lt_iff_toNat_lt.mp hlt))
    · rw [← hkey, hrow]
      exact UInt64.le_refl _
  · obtain ⟨hkey, hpos, hle⟩ := h id row' hfound
    exact ⟨hkey, hpos, UInt64.le_trans hle (UInt64.le_of_lt hlt)⟩

/-- The next id is in use nowhere. -/
theorem find?_next (h : t.CountedBy value last) (hlt : last < last + 1) {id : κ}
    (hid : value id = last + 1) : t.find? id = none := by
  cases hfound : t.find? id with
  | none => rfl
  | some row =>
    have hle : last + 1 ≤ last := hid ▸ (h id row hfound).2.2
    exact absurd hlt (UInt64.not_lt.mpr hle)

end Table.CountedBy

namespace Directory

variable {d d' : Directory} {j : Journal} {change : Option Change}

/-- Everything is stored under its own id, within what the counters have counted. -/
structure Counted (d : Directory) : Prop where
  accounts : d.accounts.CountedBy UserId.value d.lastUser
  groupRecords : d.groupRecords.CountedBy GroupId.value d.lastGroup
  permissions : d.permissions.CountedBy PermissionId.value d.lastPermission

theorem Counted.step (few : Journal.Bounded (j ++ change.toList)) (hnumbered : Numbered j d)
    (h : d.Counted) (alters : d.Alters change d') : d'.Counted := by
  obtain ⟨haccounts, hgroups, hpermissions⟩ := h
  cases alters with
  | insertUser new =>
    exact ⟨haccounts.insert_next (hnumbered.lt_nextUser few) rfl, hgroups, hpermissions⟩
  | softDelete user found =>
    obtain ⟨account, haccount, -⟩ := Option.bind_eq_some_iff.mp found
    exact ⟨haccounts.insert haccount, hgroups, hpermissions⟩
  | insertGroup name description free =>
    exact ⟨haccounts, hgroups.insert_next (hnumbered.lt_nextGroup few) rfl, hpermissions⟩
  | deleteGroup id => exact ⟨haccounts, hgroups.erase id, hpermissions⟩
  | insertGrant subject cluster reached =>
    exact ⟨haccounts, hgroups, hpermissions.insert_next (hnumbered.lt_nextPermission few) rfl⟩
  | deleteGrant id => exact ⟨haccounts, hgroups, hpermissions.erase id⟩
  | _ => exact ⟨haccounts, hgroups, hpermissions⟩

theorem Grown.counted (h : d.Grown j) (few : j.Bounded) : d.Counted :=
  (h.invariant_of_bounded (fun j d => Numbered j d ∧ d.Counted)
    ⟨⟨.start, .start, .start⟩, ⟨.empty, .empty, .empty⟩⟩
    (fun few h alters => ⟨h.1.issue few alters.handsOut, h.2.step few h.1 alters⟩) few).2

/-! ## Insertions -/

/-- Every row of a directory is in another one. -/
structure Keeps (d d' : Directory) : Prop where
  accounts : d.accounts.rows ⊆ d'.accounts.rows
  groupRecords : d.groupRecords.rows ⊆ d'.groupRecords.rows
  memberships : d.memberships.rows ⊆ d'.memberships.rows
  permissions : d.permissions.rows ⊆ d'.permissions.rows

end Directory

/-- The id of what was made was in use nowhere. -/
def Change.NewTo (d : Directory) : Change → Prop
  | .userInserted user => d.accounts.find? user.id = none
  | .groupCreated record => d.groupRecords.find? record.id = none
  | .granted permission => d.permissions.find? permission.id = none
  | _ => True

/-- Whether an action is an insertion. -/
def Action.inserts : Action → Bool
  | .insertGroup .. | .insertMembership _ | .insertGrant .. => true
  | _ => false

theorem Table.rows_subset_insert {κ α : Type} [Key κ] [DecidableEq κ] {key : α → κ}
    {t : Table κ key} {row : α} (fresh : t.find? (key row) = none) :
    t.rows ⊆ (t.insert row).rows := fun x hx =>
  Table.mem_insert_iff.mpr (.inr ⟨hx, Table.find?_eq_none_iff.mp fresh x hx⟩)

namespace Directory.Grown

variable {d d' : Directory} {j : Journal} (h : d.Grown j)

include h

/-- **What is made is new, and takes the place of nothing.** -/
theorem new {change : Change} (alters : d.Alters (some change) d')
    (few : Journal.Bounded (j ++ [change])) : change.NewTo d ∧ d.Keeps d' := by
  have hnumbered : Numbered j d := h.numbered few.of_append
  obtain ⟨haccounts, hgroups, hpermissions⟩ := h.counted few.of_append
  have hsame {α : Type} (rows : List α) : rows ⊆ rows := List.Subset.refl rows
  cases alters with
  | insertUser new =>
    have hfresh : d.accounts.find? ⟨d.lastUser + 1⟩ = none :=
      haccounts.find?_next (hnumbered.lt_nextUser few) rfl
    exact ⟨hfresh, Table.rows_subset_insert hfresh, hsame _, hsame _, hsame _⟩
  | insertGroup name description free =>
    have hfresh : d.groupRecords.find? ⟨d.lastGroup + 1⟩ = none :=
      hgroups.find?_next (hnumbered.lt_nextGroup few) rfl
    exact ⟨hfresh, hsame _, Table.rows_subset_insert hfresh, hsame _, hsame _⟩
  | insertGrant subject cluster reached =>
    have hfresh : d.permissions.find? ⟨d.lastPermission + 1⟩ = none :=
      hpermissions.find?_next (hnumbered.lt_nextPermission few) rfl
    exact ⟨hfresh, hsame _, hsame _, hsame _, Table.rows_subset_insert hfresh⟩

theorem perform_new {a : Action} {answer : a.hook.Answer} (inserts : a.inserts = true)
    (done : d.perform a = .ok (answer, d'))
    (few : Journal.Bounded (j ++ (Exchange.made? ⟨.action a, .ok answer⟩).toList)) :
    (∀ change ∈ Exchange.made? ⟨.action a, .ok answer⟩, change.NewTo d) ∧ d.Keeps d' := by
  have halters := alters_perform done
  cases a with
  | insertGroup name description =>
    obtain ⟨hnew, hkeeps⟩ := h.new halters few
    exact ⟨fun change hchange => Option.some.inj hchange ▸ hnew, hkeeps⟩
  | insertGrant subject cluster =>
    obtain ⟨hnew, hkeeps⟩ := h.new halters few
    exact ⟨fun change hchange => Option.some.inj hchange ▸ hnew, hkeeps⟩
  | insertMembership m =>
    cases done
    have hmemberships : d.memberships.rows ⊆ (d.memberships.insert m).rows := fun m' hm' => by
      by_cases hm : m' = m
      · exact hm ▸ Table.mem_insertRow_self _ _
      · exact Table.mem_insertRow_of_mem hm' hm
    exact ⟨nofun, List.Subset.refl _, List.Subset.refl _, hmemberships, List.Subset.refl _⟩
  | _ => cases inserts

end Directory.Grown

/-! ## Deeds that stay within the ids there are -/

theorem everMade_append (records later : List Record) :
    everMade (records ++ later) = everMade records ++ everMade later := List.flatMap_append

namespace Store

variable {before after : List Deed} {deed : Deed}

theorem live_split (before : List Deed) (deed : Deed) (after : List Deed) :
    (({} : Store).live (before ++ deed :: after)).1 =
      (({} : Store).live before).1 ++
        ⟨deed, ((({} : Store).live before).2.undertake deed).value,
            ((({} : Store).live before).2.undertake deed).exchanges⟩ ::
          (((({} : Store).live before).2.undertake deed).state.live after).1 := by
  rw [live_append, live_cons]

theorem bounded_of_split
    (few : (everMade (({} : Store).live (before ++ deed :: after)).1).Bounded) :
    (everKept (({} : Store).live before).1 ++
      Record.made ⟨deed, ((({} : Store).live before).2.undertake deed).value,
        ((({} : Store).live before).2.undertake deed).exchanges⟩).Bounded := by
  rw [live_split, everMade_append] at few
  refine few.of_sublist ((everKept_sublist_everMade _).append ?_)
  exact List.sublist_append_left _ _

/-- What is exchanged up to a point of a deed is part of what is ever made. -/
theorem bounded_of_point {x rest : Conversation deed.Answer} {passed : List Exchange}
    {w : Workspace}
    (few : (everMade (({} : Store).live (before ++ deed :: after)).1).Bounded)
    (hconversation : deed.conversation? = some x)
    (arrives : x.Arrives Workspace.handler (.ofStore (({} : Store).live before).2) passed rest w) :
    (everKept (({} : Store).live before).1 ++ made ((Ledger.ofExchanges passed).settled ++
      (Ledger.ofExchanges passed).pending)).Bounded := by
  refine (bounded_of_split few).of_sublist ((List.Sublist.refl _).append ?_)
  have hprefix := arrives.prefix_exchanges.sublist
  rw [← Store.exchanges_hold, ← Store.undertake_conversation _ hconversation] at hprefix
  exact (((Ledger.sublist passed).trans hprefix).filterMap _).trans (List.sublist_append_right _ _)

/-- An action of a transaction does not go beyond what is ever made. -/
theorem bounded_of_action {x : Conversation deed.Answer} {passed : List Exchange} {w : Workspace}
    {a : Action} {next : Except StoreError a.hook.Answer → Conversation deed.Answer}
    {answer : a.hook.Answer} {d' : Directory}
    (few : (everMade (({} : Store).live (before ++ deed :: after)).1).Bounded)
    (hconversation : deed.conversation? = some x)
    (arrives : x.Arrives Workspace.handler (.ofStore (({} : Store).live before).2) passed
      (.ask (.action a) next) w) (done : w.staged.perform a = .ok (answer, d')) :
    (everKept (({} : Store).live before).1 ++ made ((Ledger.ofExchanges passed).settled ++
      (Ledger.ofExchanges passed).pending) ++
        (Exchange.made? ⟨.action a, .ok answer⟩).toList).Bounded := by
  have hanswer : (Workspace.handler (.action a) w).1 = .ok answer := by
    simp only [Workspace.handler, done]
  have hfew := bounded_of_point few hconversation arrives.next
  rwa [hanswer, Ledger.ofExchanges_concat, Ledger.enter_action, ← List.append_assoc, made_append,
    made_singleton, ← List.append_assoc] at hfew

/-- A transaction that is broken off leaves no trace. -/
theorem undertake_transact_error {ε α : Type} {d : Directory} {ofStore : StoreError → ε}
    {body : ExceptT ε Transaction α} {e : ε}
    (h : ((holding d).undertake (.transact ofStore body)).value = .error e) :
    ((holding d).undertake (.transact ofStore body)).state = holding d := by
  obtain ⟨hvalue, hstate⟩ := hold_faultless (Conversation.transaction ofStore body).run (holding d)
  rw [undertake, hstate, Conversation.answered_transaction ofStore body rfl]
  rw [undertake, hvalue, Conversation.answered_transaction ofStore body rfl] at h
  cases hattempt : Transaction.attempt body (Workspace.ofStore (holding d)).store.directory with
  | mk result d' =>
    rw [hattempt] at h
    cases result with
    | ok value => cases h
    | error e' => rfl

end Store

/-- **Ids are gapless and never used twice.**  Let any deeds be done to a fresh store, within the
ids there are.  The users that were inserted, and the groups and permissions that were made in
transactions that were committed, have the numbers from one to what the counters say, in that order,
and everything is stored under its own id within these.  A transaction that is broken off changes
nothing.  So it is at each point of each deed, for the directory and for the copy of a transaction;
there what is inserted is under an id that is not in use, and takes no other row's place, and what
is refused changes nothing. -/
theorem Store.live_numbered (deeds : List Deed)
    (few : (everMade (({} : Store).live deeds).1).Bounded) :
    let run := ({} : Store).live deeds
    Numbered (everKept run.1) run.2.directory ∧
      run.2.directory.Counted ∧
      (∀ (ε α : Type) (ofStore : StoreError → ε) (body : ExceptT ε Transaction α) (e : ε),
        (run.2.undertake (.transact ofStore body)).value = .error e →
          (run.2.undertake (.transact ofStore body)).state = run.2) ∧
      ∀ before deed after, deeds = before ++ deed :: after →
        let store := (({} : Store).live before).2
        (∀ new, deed = .step (.insertUser new) →
          (Change.userInserted (store.directory.insertUser new).1).NewTo store.directory ∧
            store.directory.Keeps (store.directory.insertUser new).2) ∧
        ∀ x, deed.conversation? = some x → ∀ passed rest w,
          x.Arrives Workspace.handler (.ofStore store) passed rest w →
            w.store.directory.Counted ∧ w.staged.Counted ∧
            ∀ (a : Action) next, rest = .ask (.action a) next → a.inserts = true →
              (∀ answer d', w.staged.perform a = .ok (answer, d') →
                (∀ change ∈ Exchange.made? ⟨.action a, .ok answer⟩, change.NewTo w.staged) ∧
                  w.staged.Keeps d') ∧
              ∀ e, w.staged.perform a = .error e → (Workspace.handler (.action a) w).2 = w := by
  intro run
  obtain ⟨d, hstore, hgrown⟩ := Store.live_grown deeds
  have hrun : run.2 = .holding d := hstore
  have fewKept : (everKept run.1).Bounded := few.of_sublist (everKept_sublist_everMade _)
  rw [hrun]
  refine ⟨hgrown.numbered fewKept, hgrown.counted fewKept, ?_, ?_⟩
  · intro ε α ofStore body e herror
    exact Store.undertake_transact_error herror
  · rintro before deed after rfl store
    obtain ⟨earlier, hbefore, hearlier⟩ := Store.live_grown before
    refine ⟨?_, ?_⟩
    · rintro new rfl
      have hholding : store = .holding earlier := hbefore
      have hfew := Store.bounded_of_split few
      rw [hbefore] at hfew
      rw [hholding]
      exact hearlier.new (.insertUser new) hfew
    · intro x hconversation passed rest w harrives
      obtain ⟨-, hdirectory, hstaged⟩ := Store.live_point before harrives
      have hfew := Store.bounded_of_point few hconversation harrives
      have hsettled := (List.Sublist.refl (everKept (({} : Store).live before).1)).append
        ((List.sublist_append_left (Ledger.ofExchanges passed).settled
          (Ledger.ofExchanges passed).pending).filterMap Exchange.made?)
      refine ⟨hdirectory.counted (hfew.of_sublist hsettled), hstaged.counted hfew, ?_⟩
      rintro a next rfl hinserts
      refine ⟨fun answer d' hdone => ?_, fun e herror => ?_⟩
      · exact hstaged.perform_new hinserts hdone
          (Store.bounded_of_action few hconversation harrives hdone)
      · simp only [Workspace.handler, herror]

/-- A group is made in a transaction that is broken off, and its number is given to the next one. -/
theorem Store.live_numbered_aborted :
    let insert (name : String) : ExceptT StoreError Transaction UserGroup :=
      ExceptT.mk (Dialogue.request (Action.insertGroup name ""))
    let deeds : List Deed :=
      [.step (.insertUser { username := "ada" }),
        .transact id (do
          let _ ← insert "lost"
          throw (.internal "abort") : ExceptT StoreError Transaction Unit),
        .transact id (do
          let first ← insert "ops"
          let _ ← ExceptT.mk (Dialogue.request (Action.deleteGroup first.id))
          insert "ops")]
    let run := ({} : Store).live deeds
    (everMade run.1).Bounded ∧ (everMade run.1).createdGroups.length = 3 ∧
      Numbered (everKept run.1) run.2.directory ∧ run.2.directory.Counted ∧
      run.2.directory.lastGroup = 2 ∧
      ((everKept run.1).createdGroups.map fun record => record.id) = [⟨1⟩, ⟨2⟩] := by
  intro insert deeds run
  have hfew : (everMade run.1).Bounded := ⟨by decide, by decide, by decide⟩
  obtain ⟨hnumbered, hcounted, -, -⟩ := Store.live_numbered deeds hfew
  exact ⟨hfew, by decide, hnumbered, hcounted, by decide, by decide⟩

end ClusterAccess
