import ClusterAccess.Json.Record
import ClusterAccess.Proofs.Json.Skips

/-!
# The names of an object's members

Which members an object has can be told without reading any of them: the values are passed over
(`names`).  A record that reads the object member by member, and no field twice, has met each of its
fields as often as it has read it, which is once or never (`Counts`).

What is noted of a member may also be where its value begins (`passWith`).  Whatever every member
preserves, of what is built and what is noted so far, holds of the whole record (`Preserves`).
-/

namespace ClusterAccess.Json

variable {ε δ σ τ : Type}

namespace Reader

/-! ## Passing over members -/

/-- Passes over a member and notes something of its name and of the source that its value begins. -/
def passWith (note : String → Source → τ → τ) (name : String) (before : τ) : Reader ε τ := do
  let value ← get
  skip
  return note name value before

section PassWith

variable {note : String → Source → τ → τ} {name : String} {before after : τ} {s r : Source}

theorem passWith_of_skip (h : skip (ε := ε) s = .ok () r) :
    passWith (ε := ε) note name before s = .ok (note name s before) r := by
  rw [passWith, get_bind, bind_of_ok h]
  rfl

theorem passWith_ok (h : passWith (ε := ε) note name before s = .ok after r) :
    skip (ε := ε) s = .ok () r ∧ after = note name s before := by
  rw [passWith, get_bind] at h
  obtain ⟨u, t, hskip, h⟩ := bind_ok h
  cases h
  exact ⟨hskip, rfl⟩

theorem moves_passWith :
    Moves 0 (passWith (ε := ε) note name before) (outside 0) (outside 0) :=
  .get fun _ => .bind moves_skip fun _ => .pure 0 _ _

end PassWith

/-! ## The names -/

/-- Passes over a member and notes its name. -/
def passMember (name : String) (before : List String) : Reader ε (List String) := do
  skip
  return before ++ [name]

/-- The names of an object's members, in order. -/
def names : Reader ε (List String) := object string passMember []

end Reader

/-- The names of the members of the object that a whole source is, in order. -/
def names? (source : Source) : Option (List String) :=
  match (Reader.names (ε := Empty)).readAll source with
  | .ok names => some names
  | .error _ => none

/-! ## Fields that are read once -/

/-- Reading a field marks it as read, and no other one. -/
def Marks (fields : List (Field ε σ)) : Prop :=
  ∀ field ∈ fields, ∀ ⦃d s d' r⦄, field.read d s = .ok d' r → ∀ other ∈ fields,
    other.isRead d' = (other.isRead d || decide (other.name = field.name))

/-- Each field has been met as often as it has been read. -/
def Counts (fields : List (Field ε σ)) (d : σ) (names : List String) : Prop :=
  ∀ field ∈ fields, names.count field.name = (field.isRead d).toNat

/-- Reading a member goes with noting it. -/
def Preserves (fields : List (Field ε σ)) (note : String → Source → τ → τ)
    (Inv : σ → τ → Prop) : Prop :=
  ∀ ⦃name d d' before s r⦄, Inv d before → Reader.namedField fields name d s = .ok d' r →
    Inv d' (note name s before)

section Counts

variable {fields : List (Field ε σ)} {d d' : σ} {names : List String} {name : String} {s r : Source}

/-- What a member does that can be read: it is of no field, or of one that has not been read. -/
theorem namedField_ok (h : Reader.namedField fields name d s = .ok d' r) :
    ((∀ field ∈ fields, field.name ≠ name) ∧ d' = d ∧ Reader.skip (ε := ε) s = .ok () r) ∨
      ∃ field ∈ fields, field.name = name ∧ field.isRead d = false ∧ field.read d s = .ok d' r := by
  cases hfind : fields.find? fun field => decide (field.name = name) with
  | none =>
    rw [Reader.namedField, hfind] at h
    obtain ⟨u, t, hskip, h⟩ := Reader.bind_ok h
    cases h
    refine .inl ⟨fun field hfield hname => ?_, rfl, hskip⟩
    exact List.find?_eq_none.mp hfind field hfield (decide_eq_true hname)
  | some field =>
    rw [Reader.namedField, hfind] at h
    have hname : field.name = name := by simpa using List.find?_some hfind
    dsimp only at h
    split at h
    · cases h
    · rename_i hread
      exact .inr ⟨field, List.mem_of_find?_eq_some hfind, hname,
        Bool.eq_false_iff.mpr hread, h⟩

theorem Counts.next (hmarks : Marks fields) (h : Counts fields d names)
    (hread : Reader.namedField fields name d s = .ok d' r) :
    Counts fields d' (names ++ [name]) := by
  intro other hother
  rw [List.count_append, h other hother, List.count_singleton]
  rcases namedField_ok hread with ⟨hnone, rfl, -⟩ | ⟨field, hfield, rfl, hfirst, hread⟩
  · have hne : ¬ name = other.name := fun hname => hnone other hother hname.symm
    simp [hne]
  · rw [hmarks field hfield hread other hother]
    by_cases hname : other.name = field.name
    · -- the field has not been met before, under whichever entry
      have hzero : other.isRead d = false := by
        have hcount := h other hother
        rw [hname, h field hfield, hfirst] at hcount
        exact Bool.toNat_eq_zero.mp hcount.symm
      simp [hname, hzero]
    · have hname' : ¬ field.name = other.name := fun hne => hname hne.symm
      simp [hname, hname']

theorem Counts.count_le_one (h : Counts fields d names) {field : Field ε σ}
    (hfield : field ∈ fields) : names.count field.name ≤ 1 := by
  rw [h field hfield]
  exact Bool.toNat_le _

end Counts

/-! ## Records whose fields are read whole -/

namespace Reader

/-- **A record that can be read is an object**, of which may be noted what its members preserve. -/
theorem passWith_follows {fields : List (Field ε σ)} {note : String → Source → τ → τ}
    {Inv : σ → τ → Prop} (hnext : Preserves fields note Inv)
    (hread : ∀ field ∈ fields, ∀ d m, Follows m Ignored (field.read d) (skip (ε := δ)))
    {initial : σ} {nothing : τ} (hinitial : Inv initial nothing) (m : Nat) :
    Follows (m + 1) Inv (object string (namedField fields) initial)
      (object string (passWith (ε := δ) note) nothing) := by
  refine follows_object follows_string ?_ initial nothing hinitial
  rintro name _ d before rfl hinv s d' r hlength hs
  have hskip : Follows m Ignored (namedField fields name d) (skip (ε := δ)) := by
    intro s d' r hlength hs
    rcases namedField_ok hs with ⟨-, -, hskip⟩ | ⟨field, hfield, -, -, hs⟩
    · exact follows_skip m hlength hskip
    · exact hread field hfield d m hlength hs
  obtain ⟨u, hskip, -, hle⟩ := hskip hlength hs
  exact ⟨_, passWith_of_skip hskip, hnext hinv hs, hle⟩

/-- A record that can be read is an object with names, and has met each of its fields as often as it
has read it. -/
theorem names_follow {fields : List (Field ε σ)} (hmarks : Marks fields)
    (hread : ∀ field ∈ fields, ∀ d m, Follows m Ignored (field.read d) (skip (ε := δ)))
    {initial : σ} (hinitial : Counts fields initial []) (m : Nat) :
    Follows (m + 1) (Counts fields) (object string (namedField fields) initial)
      (names (ε := δ)) :=
  passWith_follows (fun _ _ _ _ _ _ hcounts hread => hcounts.next hmarks hread) hread hinitial m

end Reader

end ClusterAccess.Json
