import ClusterAccess.Id
/-!
# Tables

A table holds rows in strictly ascending order of a key that each row carries.  So no key occurs
twice, a row is stored under its own key and nowhere else, and listing a table needs no sorting.
A sorted set is a table whose rows are their own keys.

The lemmas say what each operation does to membership and to lookup; nothing else about the
representation is needed by what is built on it.
-/

namespace ClusterAccess

/-- Rows in strictly ascending order of their keys. -/
structure Table (κ : Type) {α : Type} [Key κ] (key : α → κ) where
  rows : List α
  ascending : rows.Pairwise fun a b => key a < key b

namespace Table

variable {κ α : Type} [Key κ] {key : α → κ}

theorem ext {t u : Table κ key} (h : t.rows = u.rows) : t = u := by
  cases t; cases u; cases h; rfl

instance [DecidableEq α] : DecidableEq (Table κ key) := fun t u =>
  if h : t.rows = u.rows then isTrue (ext h) else isFalse fun h' => h (congrArg rows h')

instance : Inhabited (Table κ key) := ⟨⟨[], .nil⟩⟩

/-- The table without rows. -/
def empty : Table κ key := ⟨[], .nil⟩

/-- The row stored under a key. -/
def find? [DecidableEq κ] (t : Table κ key) (k : κ) : Option α :=
  t.rows.find? fun row => decide (key row = k)

/-- Whether some row is stored under a key. -/
def contains [DecidableEq κ] (t : Table κ key) (k : κ) : Bool :=
  t.rows.any fun row => decide (key row = k)

def size (t : Table κ key) : Nat := t.rows.length

/-! ## Insertion -/

/-- Puts a row where its key belongs, in place of a row with the same key. -/
def insertRow (key : α → κ) (row : α) : List α → List α
  | [] => [row]
  | head :: rest =>
    if key row < key head then row :: head :: rest
    else if key head < key row then head :: insertRow key row rest
    else row :: rest

theorem mem_insertRow {row x : α} {rows : List α} (h : x ∈ insertRow key row rows) :
    x = row ∨ x ∈ rows := by
  induction rows with
  | nil => exact .inl (List.mem_singleton.mp h)
  | cons head rest ih =>
    unfold insertRow at h
    split at h
    · exact List.mem_cons.mp h
    · split at h
      · rcases List.mem_cons.mp h with rfl | h
        · exact .inr List.mem_cons_self
        · exact (ih h).imp id (List.mem_cons_of_mem _)
      · exact (List.mem_cons.mp h).imp id (List.mem_cons_of_mem _)

theorem mem_insertRow_self (row : α) (rows : List α) : row ∈ insertRow key row rows := by
  induction rows with
  | nil => exact List.mem_singleton.mpr rfl
  | cons head rest ih =>
    unfold insertRow
    split
    · exact List.mem_cons_self
    · split
      · exact List.mem_cons_of_mem _ ih
      · exact List.mem_cons_self

theorem mem_insertRow_of_mem {row x : α} {rows : List α} (h : x ∈ rows) (hne : key x ≠ key row) :
    x ∈ insertRow key row rows := by
  induction rows with
  | nil => cases h
  | cons head rest ih =>
    unfold insertRow
    split
    · exact List.mem_cons_of_mem _ h
    · rename_i h₁
      split
      · rcases List.mem_cons.mp h with rfl | h
        · exact List.mem_cons_self
        · exact List.mem_cons_of_mem _ (ih h)
      · rename_i h₂
        rcases List.mem_cons.mp h with rfl | h
        · exact absurd (Key.eq_of_not_lt h₂ h₁) hne
        · exact List.mem_cons_of_mem _ h

theorem pairwise_insertRow (row : α) {rows : List α}
    (h : rows.Pairwise fun a b => key a < key b) :
    (insertRow key row rows).Pairwise fun a b => key a < key b := by
  induction rows with
  | nil => exact List.pairwise_singleton _ _
  | cons head rest ih =>
    obtain ⟨hhead, hrest⟩ := List.pairwise_cons.mp h
    unfold insertRow
    split
    · rename_i h₁
      refine List.pairwise_cons.mpr ⟨fun x hx => ?_, h⟩
      rcases List.mem_cons.mp hx with rfl | hx
      · exact h₁
      · exact Key.lt_trans h₁ (hhead x hx)
    · rename_i h₁
      split
      · rename_i h₂
        refine List.pairwise_cons.mpr ⟨fun x hx => ?_, ih hrest⟩
        rcases mem_insertRow hx with rfl | hx
        · exact h₂
        · exact hhead x hx
      · rename_i h₂
        have heq : key head = key row := Key.eq_of_not_lt h₂ h₁
        exact List.pairwise_cons.mpr ⟨fun x hx => heq ▸ hhead x hx, hrest⟩

/-- Stores a row under its key, in place of the row that was there. -/
def insert (t : Table κ key) (row : α) : Table κ key :=
  ⟨insertRow key row t.rows, pairwise_insertRow row t.ascending⟩

/-- The rows of a list, a later row replacing an earlier one with the same key. -/
def ofList (rows : List α) : Table κ key := rows.foldl insert empty

/-! ## Removal -/

/-- The rows that satisfy a test. -/
def filter (t : Table κ key) (p : α → Bool) : Table κ key :=
  ⟨t.rows.filter p, t.ascending.filter p⟩

/-- Removes the row stored under a key. -/
def erase [DecidableEq κ] (t : Table κ key) (k : κ) : Table κ key :=
  t.filter fun row => !decide (key row = k)

/-! ## What lookups show -/

theorem mem_filter_iff {t : Table κ key} {p : α → Bool} {x : α} :
    x ∈ (t.filter p).rows ↔ x ∈ t.rows ∧ p x = true := List.mem_filter

private theorem eq_of_key_eq_of_pairwise {rows : List α} {a b : α}
    (ascending : rows.Pairwise fun a b => key a < key b) (ha : a ∈ rows) (hb : b ∈ rows)
    (h : key a = key b) : a = b := by
  induction rows with
  | nil => cases ha
  | cons head rest ih =>
    obtain ⟨hhead, hrest⟩ := List.pairwise_cons.mp ascending
    rcases List.mem_cons.mp ha with ha | ha <;> rcases List.mem_cons.mp hb with hb | hb
    · exact ha.trans hb.symm
    · exact absurd (ha ▸ h) (Key.ne_of_lt (hhead b hb))
    · exact absurd (hb ▸ h.symm) (Key.ne_of_lt (hhead a ha))
    · exact ih hrest ha hb

/-- A key belongs to at most one row. -/
theorem eq_of_key_eq {t : Table κ key} {a b : α} (ha : a ∈ t.rows) (hb : b ∈ t.rows)
    (h : key a = key b) : a = b :=
  eq_of_key_eq_of_pairwise t.ascending ha hb h

section Lookup

variable [DecidableEq κ]

theorem find?_eq_some_iff {t : Table κ key} {k : κ} {row : α} :
    t.find? k = some row ↔ row ∈ t.rows ∧ key row = k := by
  constructor
  · intro h
    exact ⟨List.mem_of_find?_eq_some h, by simpa using List.find?_some h⟩
  · rintro ⟨hmem, hkey⟩
    cases h : t.find? k with
    | none => exact absurd hkey (by simpa using List.find?_eq_none.mp h row hmem)
    | some other =>
      have hother : key other = k := by simpa using List.find?_some h
      exact congrArg some
        (eq_of_key_eq (List.mem_of_find?_eq_some h) hmem (hother.trans hkey.symm))

theorem find?_eq_none_iff {t : Table κ key} {k : κ} :
    t.find? k = none ↔ ∀ row ∈ t.rows, key row ≠ k := by
  simp [find?]

theorem contains_eq_isSome (t : Table κ key) (k : κ) : t.contains k = (t.find? k).isSome := by
  simp [contains, find?, List.isSome_find?]

theorem mem_insert_iff {t : Table κ key} {row x : α} :
    x ∈ (t.insert row).rows ↔ x = row ∨ (x ∈ t.rows ∧ key x ≠ key row) := by
  constructor
  · intro h
    by_cases hx : key x = key row
    · exact .inl (eq_of_key_eq (t := t.insert row) h (mem_insertRow_self row t.rows) hx)
    · rcases mem_insertRow h with rfl | h
      · exact .inl rfl
      · exact .inr ⟨h, hx⟩
  · rintro (rfl | ⟨h, hx⟩)
    · exact mem_insertRow_self _ _
    · exact mem_insertRow_of_mem h hx

theorem find?_insert (t : Table κ key) (row : α) (k : κ) :
    (t.insert row).find? k = if key row = k then some row else t.find? k := by
  split
  · rename_i h
    exact find?_eq_some_iff.mpr ⟨mem_insertRow_self _ _, h⟩
  · rename_i h
    cases hk : t.find? k with
    | none =>
      refine find?_eq_none_iff.mpr fun x hx => ?_
      rcases mem_insert_iff.mp hx with rfl | ⟨hx, -⟩
      · exact h
      · exact find?_eq_none_iff.mp hk x hx
    | some other =>
      obtain ⟨hmem, hkey⟩ := find?_eq_some_iff.mp hk
      exact find?_eq_some_iff.mpr ⟨mem_insert_iff.mpr (.inr ⟨hmem, fun e => h (e ▸ hkey)⟩), hkey⟩

theorem mem_erase_iff {t : Table κ key} {k : κ} {x : α} :
    x ∈ (t.erase k).rows ↔ x ∈ t.rows ∧ key x ≠ k := by
  simp [erase, mem_filter_iff]

theorem find?_erase (t : Table κ key) (k k' : κ) :
    (t.erase k).find? k' = if k = k' then none else t.find? k' := by
  split
  · rename_i h
    exact find?_eq_none_iff.mpr fun x hx => h ▸ (mem_erase_iff.mp hx).2
  · rename_i h
    cases hk : t.find? k' with
    | none => exact find?_eq_none_iff.mpr fun x hx =>
        find?_eq_none_iff.mp hk x (mem_erase_iff.mp hx).1
    | some other =>
      obtain ⟨hmem, hkey⟩ := find?_eq_some_iff.mp hk
      exact find?_eq_some_iff.mpr
        ⟨mem_erase_iff.mpr ⟨hmem, fun e => h (e.symm.trans hkey)⟩, hkey⟩

end Lookup

end Table

/-- A set of keys, listed in ascending order. -/
abbrev SortedSet (κ : Type) [Key κ] := Table κ (id : κ → κ)

end ClusterAccess
