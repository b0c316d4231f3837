import ClusterAccess.Proofs.Service.Deeds
import ClusterAccess.Proofs.Service.Newcomers
import ClusterAccess.Proofs.Text.Blank

/-!
# Names of groups

No two groups have the same name.  The service looks for the trimmed form of the name it is asked
for, and the store looks again for the name that it is given; whichever of them is in front, a name
that a group has is not given to another one, and that is enough for every transaction whatever
(`Directory.Grown.namesDistinct`).  That names are trimmed and not empty is the service's doing
alone (`Reaches.namesTrimmed`).
-/

namespace ClusterAccess

namespace Directory

/-- The names of the groups, in the order of their ids. -/
def groupNames (d : Directory) : List String := d.groupRecords.rows.map GroupRecord.name

/-- No two groups have the same name. -/
def NamesDistinct (d : Directory) : Prop :=
  ∀ a ∈ d.groupRecords.rows, ∀ b ∈ d.groupRecords.rows, a.name = b.name → a = b

variable {d : Directory} {name : String}

theorem nameTaken_iff : d.nameTaken name = true ↔ name ∈ d.groupNames := by
  simp only [nameTaken, groupNames, List.any_eq_true, decide_eq_true_eq, List.mem_map]

theorem nameTaken_eq_false_iff : d.nameTaken name = false ↔ name ∉ d.groupNames := by
  rw [← nameTaken_iff, Bool.not_eq_true]

theorem NamesDistinct.nodup (h : d.NamesDistinct) : d.groupNames.Nodup := by
  refine List.pairwise_map.mpr (d.groupRecords.ascending.imp_of_mem ?_)
  intro a b ha hb hlt hname
  exact Key.ne_of_lt hlt (congrArg GroupRecord.id (h a ha b hb hname))

/-! ## Distinct names -/

/-- With fewer groups there are not more groups of one name. -/
theorem NamesDistinct.of_subset {d' : Directory} (h : d.NamesDistinct)
    (hsub : ∀ r ∈ d'.groupRecords.rows, r ∈ d.groupRecords.rows) : d'.NamesDistinct :=
  fun a ha b hb => h a (hsub a ha) b (hsub b hb)

/-- A group under a name that is free. -/
theorem NamesDistinct.insert {d' : Directory} {record : GroupRecord} (h : d.NamesDistinct)
    (free : d.nameTaken record.name = false)
    (hrecords : d'.groupRecords = d.groupRecords.insert record) : d'.NamesDistinct := by
  have hother {r : GroupRecord} (hr : r ∈ d.groupRecords.rows) : record.name ≠ r.name :=
    fun hname => nameTaken_eq_false_iff.mp free (List.mem_map.mpr ⟨r, hr, hname.symm⟩)
  intro a ha b hb hname
  rw [hrecords] at ha hb
  rcases Table.mem_insert_iff.mp ha with hnew | ⟨hold, -⟩ <;>
    rcases Table.mem_insert_iff.mp hb with hnew' | ⟨hold', -⟩
  · rw [hnew, hnew']
  · exact absurd (hnew ▸ hname) (hother hold')
  · exact absurd (hnew' ▸ hname.symm) (hother hold)
  · exact h a hold b hold' hname

theorem NamesDistinct.alters {d' : Directory} {change : Option Change} (h : d.NamesDistinct)
    (alters : d.Alters change d') : d'.NamesDistinct := by
  cases alters with
  | insertGroup name description free => exact h.insert free rfl
  | deleteGroup id => exact h.of_subset fun r hr => (Table.mem_erase_iff.mp hr).1
  | _ => exact h

/-- **Whatever is done to a store**, no two of its groups have the same name. -/
theorem Grown.namesDistinct {j : Journal} (h : d.Grown j) : d.NamesDistinct := by
  induction h with
  | start => exact nofun
  | step _ alters ih => exact ih.alters alters

/-! ## Creation -/

/-- The directory with one more group, which has no members. -/
def withGroup (d : Directory) (name description : String) : Directory :=
  { d with
    groupRecords := d.groupRecords.insert { id := ⟨d.lastGroup + 1⟩, name, description }
    lastGroup := d.lastGroup + 1 }

variable {description : String}

theorem createGroup_of_allBlank (h : Text.AllBlank name) :
    d.createGroup name description = (.error .invalidName, d) := by
  rw [createGroup, if_pos (Text.trim_eq_empty_iff.mpr h)]

theorem createGroup_of_taken (h : ¬ Text.AllBlank name) (taken : Text.trim name ∈ d.groupNames) :
    d.createGroup name description = (.error (.duplicateName (Text.trim name)), d) := by
  rw [createGroup, if_neg (mt Text.trim_eq_empty_iff.mp h), insertGroup,
    if_pos (nameTaken_iff.mpr taken)]

theorem createGroup_of_free (h : ¬ Text.AllBlank name) (free : Text.trim name ∉ d.groupNames) :
    d.createGroup name description =
      (.ok ⟨⟨d.lastGroup + 1⟩, Text.trim name, description, .empty⟩,
        d.withGroup (Text.trim name) description) := by
  rw [createGroup, if_neg (mt Text.trim_eq_empty_iff.mp h), insertGroup,
    if_neg (mt nameTaken_iff.mp free)]
  rfl

theorem createGroup_eq_invalidName_iff :
    (d.createGroup name description).1 = .error .invalidName ↔ Text.AllBlank name := by
  by_cases hblank : Text.AllBlank name
  · rw [createGroup_of_allBlank hblank]
    exact iff_of_true rfl hblank
  · refine iff_of_false ?_ hblank
    by_cases htaken : Text.trim name ∈ d.groupNames
    · rw [createGroup_of_taken hblank htaken]
      exact nofun
    · rw [createGroup_of_free hblank htaken]
      exact nofun

theorem createGroup_eq_duplicateName_iff :
    (d.createGroup name description).1 = .error (.duplicateName (Text.trim name)) ↔
      ¬ Text.AllBlank name ∧ Text.trim name ∈ d.groupNames := by
  by_cases hblank : Text.AllBlank name
  · rw [createGroup_of_allBlank hblank]
    exact iff_of_false nofun fun h => h.1 hblank
  · by_cases htaken : Text.trim name ∈ d.groupNames
    · rw [createGroup_of_taken hblank htaken]
      exact iff_of_true rfl ⟨hblank, htaken⟩
    · rw [createGroup_of_free hblank htaken]
      exact iff_of_false nofun fun h => htaken h.2

/-- Nothing of a name counts but its trimmed form. -/
theorem createGroup_congr {other : String} (h : Text.trim name = Text.trim other) :
    d.createGroup name description = d.createGroup other description := by
  rw [createGroup, createGroup, h]

/-! ## Deletion -/

/-- The name of a group whose record is gone is free. -/
theorem NamesDistinct.not_mem_of_erase {d' : Directory} {record : GroupRecord}
    (h : d.NamesDistinct) (stored : d.groupRecords.find? record.id = some record)
    (hrecords : d'.groupRecords = d.groupRecords.erase record.id) :
    record.name ∉ d'.groupNames := by
  intro hmem
  obtain ⟨other, hother, hname⟩ := List.mem_map.mp hmem
  rw [hrecords] at hother
  obtain ⟨hold, hid⟩ := Table.mem_erase_iff.mp hother
  obtain ⟨hrecord, -⟩ := Table.find?_eq_some_iff.mp stored
  exact hid (congrArg GroupRecord.id (h other hold record hrecord hname))

theorem groupRecords_removeGroup {id : GroupId} (h : (d.removeGroup id).1 = .ok ()) :
    (d.removeGroup id).2.groupRecords = d.groupRecords.erase id := by
  unfold removeGroup at h ⊢
  by_cases hstored : d.groupRecords.contains id = true
  · by_cases hgrants : 0 < d.grantCount id
    · rw [if_pos hstored, if_pos hgrants] at h
      cases h
    · rw [if_pos hstored, if_neg hgrants]
      rfl
  · rw [if_neg hstored] at h
    cases h

end Directory

/-! ## Trimmed names -/

/-- **The service gives trimmed names** that are not empty. -/
theorem Reaches.namesTrimmed {history : List Entry} {d : Directory} (h : Reaches history d) :
    ∀ name ∈ d.groupNames, name ≠ "" ∧ Text.IsTrimmed name := by
  refine h.invariant (fun _ d => ∀ name ∈ d.groupNames, name ≠ "" ∧ Text.IsTrimmed name) nofun ?_
  intro j d d' change hnames heffect
  cases heffect with
  | groupCreated asked description named free =>
    intro name hname
    obtain ⟨record, hrecord, rfl⟩ := List.mem_map.mp hname
    rcases Table.mem_insert_iff.mp hrecord with rfl | ⟨hold, -⟩
    · exact ⟨named, Text.isTrimmed_trim asked⟩
    · exact hnames _ (List.mem_map_of_mem hold)
  | groupDeleted id stored unused =>
    intro name hname
    obtain ⟨record, hrecord, rfl⟩ := List.mem_map.mp hname
    exact hnames _ (List.mem_map_of_mem (Table.mem_erase_iff.mp hrecord).1)
  | _ => exact hnames

/-! ## Every run -/

namespace Store

/-- A run of the service is one of the ways to use a store. -/
theorem live_steps (store : Store) (steps : List Step) :
    (store.live (steps.map Deed.step)).2 = (store.serve steps).2 := by
  induction steps generalizing store with
  | nil => rfl
  | cons step steps ih =>
    have hstate : (store.undertake (.step step)).state = (store.perform step).2 := by
      cases step <;> rfl
    rw [List.map_cons, live_cons, serve_cons, hstate]
    exact ih _

theorem perform_createGroup (d : Directory) (name description : String) :
    (holding d).perform (.command (.createGroup name description)) =
      ((d.createGroup name description).1, .holding (d.createGroup name description).2) :=
  perform_eq d _

theorem perform_deleteGroup (d : Directory) (id : GroupId) :
    (holding d).perform (.command (.deleteGroup id)) =
      ((d.removeGroup id).1, .holding (d.removeGroup id).2) :=
  perform_eq d _

end Store

/-- **Names of groups are distinct**, whatever is done to a store, and the name of a group that is
deleted can be used again.  After a run of the service names are trimmed too, and not empty.

On a store in any state a group is refused as nameless if and only if its name is nothing but
blanks, and else as a duplicate if and only if a group has its trimmed name; else it is created
under that name, the next id and its description, and nothing else is touched.  So names with the
same trimmed form fare alike. -/
theorem Store.live_names :
    (∀ deeds : List Deed, ∃ d, (({} : Store).live deeds).2 = .holding d ∧ d.groupNames.Nodup ∧
      ∀ id record, d.groupRecords.find? id = some record →
        record.name ∉ (d.deleteGroup id).2.groupNames ∧
        let deleted := (Store.holding d).perform (.command (.deleteGroup id))
        deleted.1 = .ok () →
          record.name ∉ deleted.2.directory.groupNames ∧
          ∀ name description, Text.trim name = record.name → ¬ Text.AllBlank name →
            ∃ group, (deleted.2.perform (.command (.createGroup name description))).1 = .ok group ∧
              group.name = record.name) ∧
    (∀ steps : List Step, ∃ d, (({} : Store).serve steps).2 = .holding d ∧
      (({} : Store).live (steps.map Deed.step)).2 = .holding d ∧
      d.groupNames.Nodup ∧ ∀ name ∈ d.groupNames, name ≠ "" ∧ Text.IsTrimmed name) ∧
    ∀ (d : Directory) (name description : String),
      let created := (Store.holding d).perform (.command (.createGroup name description))
      (created.1 = .error .invalidName ↔ Text.AllBlank name) ∧
      (created.1 = .error (.duplicateName (Text.trim name)) ↔
        ¬ Text.AllBlank name ∧ Text.trim name ∈ d.groupNames) ∧
      (¬ Text.AllBlank name → Text.trim name ∉ d.groupNames →
        created.1 = .ok ⟨⟨d.lastGroup + 1⟩, Text.trim name, description, .empty⟩ ∧
        created.2 = .holding (d.withGroup (Text.trim name) description) ∧
        ∀ id, id ≠ ⟨d.lastGroup + 1⟩ →
          created.2.directory.groupRecords.find? id = d.groupRecords.find? id) ∧
      ∀ other, Text.trim name = Text.trim other →
        (Store.holding d).perform (.command (.createGroup other description)) = created := by
  refine ⟨?_, ?_, ?_⟩
  · intro deeds
    obtain ⟨d, hstore, hgrown⟩ := Store.live_grown deeds
    refine ⟨d, hstore, hgrown.namesDistinct.nodup, ?_⟩
    intro id record hstored
    obtain ⟨-, rfl⟩ := Table.find?_eq_some_iff.mp hstored
    refine ⟨hgrown.namesDistinct.not_mem_of_erase hstored rfl, ?_⟩
    intro deleted hdeleted
    have hafter : deleted = _ := Store.perform_deleteGroup d record.id
    rw [hafter] at hdeleted ⊢
    have hfree := hgrown.namesDistinct.not_mem_of_erase hstored
      (Directory.groupRecords_removeGroup hdeleted)
    refine ⟨hfree, fun name description htrim hblank => ?_⟩
    rw [← htrim] at hfree ⊢
    rw [Store.perform_createGroup, Directory.createGroup_of_free hblank hfree]
    exact ⟨_, rfl, rfl⟩
  · intro steps
    obtain ⟨d, hstore, hreaches⟩ := Store.serve_reaches steps
    obtain ⟨d', hlived, hgrown⟩ := Store.live_grown (steps.map Deed.step)
    have hlive : (({} : Store).live (steps.map Deed.step)).2 = .holding d :=
      (Store.live_steps {} steps).trans hstore
    obtain rfl : d = d' := congrArg Store.directory (hlive.symm.trans hlived)
    exact ⟨d, hstore, hlive, hgrown.namesDistinct.nodup, hreaches.namesTrimmed⟩
  · intro d name description created
    have hcreated : created = _ := Store.perform_createGroup d name description
    rw [hcreated]
    dsimp only
    refine ⟨Directory.createGroup_eq_invalidName_iff, Directory.createGroup_eq_duplicateName_iff,
      ?_, ?_⟩
    · intro hblank hfree
      rw [Directory.createGroup_of_free hblank hfree]
      refine ⟨rfl, rfl, fun id hid => ?_⟩
      rw [Directory.withGroup, Table.find?_insert, if_neg hid.symm]
    · intro other htrim
      rw [Store.perform_createGroup, Directory.createGroup_congr htrim]

/-- The name of a group is used again after the group is deleted, with blanks around it of which
some are not of the commonest kind. -/
theorem Store.live_names_reused :
    let steps : List Step := [.command (.createGroup "ops" "on-call"),
      .command (.createGroup " dev" "")]
    let d := (({} : Store).live (steps.map Deed.step)).2.directory
    let deleted := (Store.holding d).perform (.command (.deleteGroup ⟨1⟩))
    let padded := "\u3000ops\t"
    d.groupNames = ["ops", "dev"] ∧ deleted.1 = .ok () ∧
      (∃ group, (deleted.2.perform (.command (.createGroup padded "new"))).1 = .ok group ∧
        group.name = "ops") ∧
      ((Store.holding d).perform (.command (.createGroup padded "new"))).1 =
        .error (.duplicateName "ops") ∧
      ((Store.holding d).perform (.command (.createGroup "\u2028 " "new"))).1 =
        .error .invalidName ∧
      ((Store.holding d).perform (.command (.createGroup "qa " ""))).1 =
        .ok ⟨⟨3⟩, "qa", "", .empty⟩ ∧
      (Store.holding d).perform (.command (.createGroup "\u00A0qa" "")) =
        (Store.holding d).perform (.command (.createGroup "qa " "")) := by
  intro steps d deleted padded
  obtain ⟨hdeeds, -, hcreate⟩ := Store.live_names
  obtain ⟨d', hstore, -, hreused⟩ := hdeeds (steps.map Deed.step)
  obtain rfl : d = d' := congrArg Store.directory hstore
  have hnames : d.groupNames = ["ops", "dev"] := by decide
  have hdeleted : deleted.1 = .ok () := by decide
  have htrim : Text.trim padded = "ops" := by decide
  have hpadded : ¬ Text.AllBlank padded := by decide
  obtain ⟨-, hname⟩ := hreused ⟨1⟩ ⟨⟨1⟩, "ops", "on-call"⟩ (by decide)
  obtain ⟨-, htaken, -, -⟩ := hcreate d padded "new"
  obtain ⟨hblank, -, -, -⟩ := hcreate d "\u2028 " "new"
  obtain ⟨-, -, hfree, hsame⟩ := hcreate d "qa " ""
  have htrim' : Text.trim "qa " = "qa" := by decide
  have hnext : d.lastGroup + 1 = 3 := by decide
  have hcreated := (hfree (by decide) (by decide)).1
  rw [htrim', hnext] at hcreated
  refine ⟨hnames, hdeleted, (hname hdeleted).2 padded "new" htrim hpadded, ?_,
    hblank.mpr (by decide), hcreated, hsame "\u00A0qa" (by decide)⟩
  rw [htrim] at htaken
  exact htaken.mpr ⟨hpadded, by decide⟩

end ClusterAccess
