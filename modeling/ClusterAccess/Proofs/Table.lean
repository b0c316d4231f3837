import ClusterAccess.Table
import Mathlib.Data.List.Sort

/-!
# Searching and changing tables

What the lemmas beside the table say of one row at a time is put here into the forms that proofs
about whole directories need: which keys are in use after a change, and which row a search finds
first.
-/

namespace ClusterAccess.Table

variable {κ α : Type} [Key κ] {key : α → κ}

/-! ## Keys in use -/

section Lookup

variable [DecidableEq κ]

theorem contains_iff {t : Table κ key} {k : κ} :
    t.contains k = true ↔ ∃ row ∈ t.rows, key row = k := by
  simp only [contains, List.any_eq_true, decide_eq_true_eq]

theorem contains_insert_iff {t : Table κ key} {row : α} {k : κ} :
    (t.insert row).contains k = true ↔ key row = k ∨ t.contains k = true := by
  rw [contains_eq_isSome, contains_eq_isSome, find?_insert]
  by_cases h : key row = k
  · rw [if_pos h, Option.isSome_some, eq_self, true_iff]
    exact .inl h
  · rw [if_neg h, or_iff_right h]

theorem contains_erase_iff {t : Table κ key} {k k' : κ} :
    (t.erase k).contains k' = true ↔ k ≠ k' ∧ t.contains k' = true := by
  rw [contains_eq_isSome, contains_eq_isSome, find?_erase]
  by_cases h : k = k'
  · rw [if_pos h, Option.isSome_none]
    exact ⟨nofun, fun hne => absurd h hne.1⟩
  · rw [if_neg h, and_iff_right h]

/-- A row under a new key comes to those that are there. -/
theorem mem_insert_fresh_iff {t : Table κ key} {row x : α} (fresh : ∀ x ∈ t.rows, key x ≠ key row) :
    x ∈ (t.insert row).rows ↔ x = row ∨ x ∈ t.rows := by
  rw [mem_insert_iff]
  constructor
  · rintro (h | ⟨h, -⟩)
    · exact .inl h
    · exact .inr h
  · rintro (h | h)
    · exact .inl h
    · exact .inr ⟨h, fresh x h⟩

end Lookup

/-! ## Tables that are the same -/

/-- A table is known by its members. -/
theorem rows_eq {t : Table κ key} {rows : List α}
    (ascending : rows.Pairwise fun a b => key a < key b) (h : ∀ x, x ∈ t.rows ↔ x ∈ rows) :
    t.rows = rows := by
  have hirrefl : Std.Irrefl fun a b : α => key a < key b := ⟨fun a => Key.lt_irrefl (key a)⟩
  have hantisymm : Std.Antisymm fun a b : α => key a < key b :=
    ⟨fun a b hlt hgt => absurd hgt (Key.not_lt_of_lt hlt)⟩
  exact t.ascending.eq_of_mem_iff ascending h

theorem eq_of_mem_iff {t u : Table κ key} (h : ∀ x, x ∈ t.rows ↔ x ∈ u.rows) : t = u :=
  ext (rows_eq u.ascending h)

/-- A row under a new key can be taken out again. -/
theorem erase_insert_fresh [DecidableEq κ] {t : Table κ key} {row : α}
    (fresh : ∀ x ∈ t.rows, key x ≠ key row) : (t.insert row).erase (key row) = t := by
  refine eq_of_mem_iff fun x => ?_
  rw [mem_erase_iff, mem_insert_fresh_iff fresh]
  constructor
  · rintro ⟨rfl | hx, hne⟩
    · exact absurd rfl hne
    · exact hx
  · intro hx
    exact ⟨.inr hx, fresh x hx⟩

/-! ## Sizes -/

theorem length_insertRow_le (row : α) (rows : List α) :
    (insertRow key row rows).length ≤ rows.length + 1 := by
  induction rows with
  | nil => exact Nat.le_refl 1
  | cons head rest ih =>
    unfold insertRow
    by_cases hbelow : key row < key head
    · rw [if_pos hbelow]
      exact Nat.le_refl _
    · rw [if_neg hbelow]
      by_cases habove : key head < key row
      · rw [if_pos habove]
        exact Nat.succ_le_succ ih
      · rw [if_neg habove]
        exact Nat.le_succ _

theorem size_insert_le (t : Table κ key) (row : α) : (t.insert row).size ≤ t.size + 1 :=
  length_insertRow_le row t.rows

theorem size_erase_le [DecidableEq κ] (t : Table κ key) (k : κ) : (t.erase k).size ≤ t.size :=
  List.length_filter_le _ _

/-- A table has no more rows than there are numbers for its keys. -/
theorem size_le_length {ν : Type} {t : Table κ key} {number : κ → ν}
    (injective : Function.Injective number) {numbers : List ν}
    (h : ∀ row ∈ t.rows, number (key row) ∈ numbers) : t.size ≤ numbers.length := by
  have hnodup : (t.rows.map fun row => number (key row)).Nodup :=
    List.pairwise_map.mpr (t.ascending.imp fun hlt heq => Key.ne_of_lt hlt (injective heq))
  have hlength := hnodup.length_le_of_subset fun _ hn => List.forall_mem_map.mpr h _ hn
  rwa [List.length_map] at hlength

/-! ## Tables made of lists -/

/-- A row whose key is above all others comes last. -/
theorem insertRow_of_lt {row : α} {rows : List α} (h : ∀ x ∈ rows, key x < key row) :
    insertRow key row rows = rows ++ [row] := by
  induction rows with
  | nil => rfl
  | cons head rest ih =>
    have hhead : key head < key row := h head List.mem_cons_self
    rw [insertRow, if_neg (Key.not_lt_of_lt hhead), if_pos hhead,
      ih fun x hx => h x (List.mem_cons_of_mem _ hx)]
    rfl

theorem rows_foldl_insert {rows : List α} {t : Table κ key}
    (ascending : (t.rows ++ rows).Pairwise fun a b => key a < key b) :
    (rows.foldl insert t).rows = t.rows ++ rows := by
  induction rows generalizing t with
  | nil => exact (List.append_nil _).symm
  | cons row rows ih =>
    have hinsert : (t.insert row).rows = t.rows ++ [row] := by
      refine insertRow_of_lt fun x hx => ?_
      exact (List.pairwise_append.mp ascending).2.2 x hx row List.mem_cons_self
    have happend : (t.insert row).rows ++ rows = t.rows ++ row :: rows := by
      rw [hinsert, List.append_assoc, List.singleton_append]
    rw [List.foldl_cons, ih (by rwa [happend]), happend]

/-- A table is made again of its own rows. -/
theorem ofList_rows (t : Table κ key) : (ofList t.rows : Table κ key) = t :=
  ext (rows_foldl_insert t.ascending)

/-! ## Changing rows under their keys -/

/-- The table in which every row is changed, but not its key. -/
def mapRows (t : Table κ key) (f : α → α) (hkey : ∀ a, key (f a) = key a) : Table κ key :=
  ⟨t.rows.map f, List.pairwise_map.mpr (t.ascending.imp fun h => by rwa [hkey, hkey])⟩

section MapRows

variable {f : α → α} (hkey : ∀ a, key (f a) = key a)

include hkey in
theorem insertRow_map (row : α) (rows : List α) :
    insertRow key (f row) (rows.map f) = (insertRow key row rows).map f := by
  induction rows with
  | nil => rfl
  | cons head rest ih =>
    simp only [List.map_cons, insertRow, hkey, ih]
    split
    · rfl
    · split <;> rfl

theorem mapRows_insert (t : Table κ key) (row : α) :
    (t.mapRows f hkey).insert (f row) = (t.insert row).mapRows f hkey :=
  ext (insertRow_map hkey row t.rows)

variable [DecidableEq κ] (t : Table κ key) (k : κ)

theorem find?_mapRows : (t.mapRows f hkey).find? k = (t.find? k).map f := by
  simp only [find?, mapRows, List.find?_map, Function.comp_def, hkey]

theorem contains_mapRows : (t.mapRows f hkey).contains k = t.contains k := by
  rw [contains_eq_isSome, contains_eq_isSome, find?_mapRows, Option.isSome_map]

theorem mapRows_erase : (t.mapRows f hkey).erase k = (t.erase k).mapRows f hkey := by
  refine ext ?_
  simp only [erase, filter, mapRows, List.filter_map, Function.comp_def, hkey]

end MapRows

/-! ## The first row that satisfies a test -/

/-- Rows are searched in the order of their keys, so that the least row is found. -/
theorem find?_rows_of_least {t : Table κ key} {p : α → Bool} {row : α} (hmem : row ∈ t.rows)
    (hrow : p row = true) (hleast : ∀ other ∈ t.rows, p other = true → ¬ key other < key row) :
    t.rows.find? p = some row := by
  cases hfound : t.rows.find? p with
  | none => exact absurd hrow (List.find?_eq_none.mp hfound row hmem)
  | some other =>
    obtain ⟨hother, before, after, hrows, hbefore⟩ := List.find?_eq_some_iff_append.mp hfound
    have hascending := t.ascending
    rw [hrows] at hmem hascending
    rcases List.mem_append.mp hmem with h | h
    · have hpassed := hbefore row h
      rw [hrow] at hpassed
      cases hpassed
    · rcases List.mem_cons.mp h with h | h
      · rw [h]
      · have hlt : key other < key row :=
          (List.pairwise_cons.mp (List.pairwise_append.mp hascending).2.1).1 row h
        have hin : other ∈ t.rows := List.mem_of_find?_eq_some hfound
        exact absurd hlt (hleast other hin hother)

/-- A search finds the row with the least key among those that satisfy the test. -/
theorem find?_rows_eq_some_iff {t : Table κ key} {p : α → Bool} {row : α} :
    t.rows.find? p = some row ↔ row ∈ t.rows ∧ p row = true ∧
      ∀ other ∈ t.rows, p other = true → ¬ key other < key row := by
  constructor
  · intro hfound
    refine ⟨List.mem_of_find?_eq_some hfound, List.find?_some hfound, fun other hother hp => ?_⟩
    obtain ⟨-, before, after, hrows, hbefore⟩ := List.find?_eq_some_iff_append.mp hfound
    have hascending := t.ascending
    rw [hrows] at hother hascending
    rcases List.mem_append.mp hother with h | h
    · have hpassed := hbefore other h
      rw [hp] at hpassed
      cases hpassed
    · rcases List.mem_cons.mp h with rfl | h
      · exact Key.lt_irrefl _
      · exact Key.not_lt_of_lt
          ((List.pairwise_cons.mp (List.pairwise_append.mp hascending).2.1).1 other h)
  · rintro ⟨hmem, hrow, hleast⟩
    exact find?_rows_of_least hmem hrow hleast

end ClusterAccess.Table

/-! ## Sets made of lists -/

namespace ClusterAccess.SortedSet

variable {κ : Type} [Key κ] [DecidableEq κ] {keys : List κ} {k : κ}

theorem mem_foldl_insert_iff {t : SortedSet κ} :
    k ∈ (keys.foldl Table.insert t).rows ↔ k ∈ t.rows ∨ k ∈ keys := by
  induction keys generalizing t with
  | nil => simp
  | cons head keys ih =>
    rw [List.foldl_cons, ih, Table.mem_insert_iff, List.mem_cons]
    by_cases hk : k = head
    · simp [hk]
    · simp [hk]

theorem mem_ofList_iff : k ∈ (Table.ofList keys : SortedSet κ).rows ↔ k ∈ keys := by
  rw [Table.ofList, mem_foldl_insert_iff]
  exact or_iff_right nofun

end ClusterAccess.SortedSet
