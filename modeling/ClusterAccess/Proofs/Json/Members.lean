import ClusterAccess.Proofs.Json.Entries
import ClusterAccess.Proofs.Json.Local

/-!
# What a record makes of its members

A record that is read from an object is what its members make of it one after the other, and the
first of them that is refused refuses the whole (`endsAs_object`).  What is read of a member's value
depends on nothing but the text of the value (`outcome_eq_readAll`), whatever members there are
around it and however they are spelled.  So two objects can be compared by their members, each of
them a name and a text (`members?`).
-/

namespace ClusterAccess.Json

variable {ε δ α σ : Type}

/-! ## The text of a value -/

/-- The text of the value that a source begins with, without the blanks before it. -/
def textOf (value : Source) : Source :=
  match Reader.skip (ε := Empty) value with
  | .ok () rest => Reader.dropSpaces (value.take (value.length - rest.length))
  | .error _ _ => []

theorem textOf_append {t rest : Source}
    (h : Reader.skip (ε := Empty) (t ++ rest) = .ok () rest) :
    textOf (t ++ rest) = Reader.dropSpaces t := by
  have hlength : (t ++ rest).length - rest.length = t.length := by
    rw [List.length_append, Nat.add_sub_cancel]
  simp only [textOf, h, hlength, List.take_left']

/-- The members of the object that a whole source is: their names and the texts of their values. -/
def members? (source : Source) : Option (List (String × Source)) :=
  (entries? source).map fun entries => entries.map fun entry => (entry.1, textOf entry.2)

/-- The value that a text is, in which at most `nesting` brackets are open at a time. -/
def valueOf? (nesting : Nat) (text : Source) : Option Json :=
  ((Reader.value (ε := Empty) nesting).readAll text).toOption

/-! ## What follows a value -/

theorem digit?_of_isSpace {c : Char} (h : Reader.isSpace c = true) :
    Reader.digit? c = none ∧ c ≠ '.' ∧ c ≠ 'e' ∧ c ≠ 'E' := by
  simp only [Reader.isSpace, Bool.or_eq_true, decide_eq_true_eq] at h
  rcases h with ((rfl | rfl) | rfl) | rfl <;> decide

/-- No number goes on where a value is followed by another member or by the closing bracket. -/
theorem Delimited.stops {r : Source} (h : Delimited r) : Stops r := by
  obtain ⟨c, t, hdrop, hmark⟩ := h
  cases r with
  | nil => trivial
  | cons piece r =>
    cases piece with
    | stray byte => trivial
    | char d =>
      by_cases hd : Reader.isSpace d = true
      · exact digit?_of_isSpace hd
      · rw [Reader.dropSpaces_char (Bool.eq_false_iff.mpr hd)] at hdrop
        cases hdrop
        rcases hmark with rfl | rfl <;> exact ⟨rfl, by decide, by decide, by decide⟩

/-- A source that begins with the value of a member. -/
def Spelled (value : Source) : Prop :=
  ∃ rest, Reader.skip (ε := Empty) value = .ok () rest ∧ Delimited rest

namespace Reader

/-! ## Member by member -/

/-- What a reader comes to, wherever it leaves the source. -/
def outcome : EStateM.Result (Failure ε) Source α → Except (Failure ε) α
  | .ok a _ => .ok a
  | .error e _ => .error e

/-- A reader comes to what is expected of it, and if it succeeds it does so at `r`. -/
def EndsAs (r : Source) (expected : Except (Failure ε) α)
    (result : EStateM.Result (Failure ε) Source α) : Prop :=
  match expected with
  | .ok a => result = .ok a r
  | .error e => ∃ t, result = .error e t

/-- What a member, given with the source that its value begins, makes of a record. -/
def takeMember (fields : List (Field ε σ)) (d : σ) (entry : String × Source) :
    Except (Failure ε) σ := outcome (namedField fields entry.1 d entry.2)

/-- The members of an object from one of them on, and what is left of the source after the last. -/
inductive Walk : (turns : Nat) → (first : Bool) → Source → List (String × Source) → Source → Prop
  | stop {turns : Nat} {first : Bool} {s r : Source}
      (last : more (ε := Empty) '\x7d' first s = .ok false r) : Walk (turns + 1) first s [] r
  | step {turns : Nat} {first : Bool} {s s₁ s₂ value rest r : Source} {name : String}
      {entries : List (String × Source)}
      (another : more (ε := Empty) '\x7d' first s = .ok true s₁)
      (named : string (ε := Empty) s₁ = .ok name s₂)
      (colon : expect (ε := Empty) ':' s₂ = .ok () value)
      (passed : skip (ε := Empty) value = .ok () rest) (ends : Delimited rest)
      (later : Walk turns false rest entries r) :
      Walk (turns + 1) first s ((name, value) :: entries) r

namespace Walk

variable {turns : Nat} {first : Bool} {s r : Source} {before entries : List (String × Source)}

theorem of_members
    (h : members (ε := Empty) string (passWith noteEntry) turns first before s = .ok entries r) :
    ∃ new, entries = before ++ new ∧ Walk turns first s new r := by
  induction turns generalizing first before s with
  | zero => cases h
  | succ turns ih =>
    obtain ⟨_, hturns, ⟨hmore, rfl⟩ | ⟨s₁, name, s₂, s₃, built, s₄, hmore, hkey, hcolon, hmember,
      hrest⟩⟩ := members_ok h
    · exact ⟨[], (List.append_nil _).symm, .stop hmore⟩
    · obtain rfl := Nat.succ.inj hturns
      obtain ⟨hskip, rfl⟩ := passWith_ok hmember
      obtain ⟨new, rfl, hwalk⟩ := ih hrest
      exact ⟨(name, s₃) :: new, List.append_assoc _ _ _,
        .step hmore hkey hcolon hskip (delimited_of_members hrest) hwalk⟩

theorem spelled (h : Walk turns first s entries r) : ∀ entry ∈ entries, Spelled entry.2 := by
  induction h with
  | stop last => exact nofun
  | step another named colon passed ends later ih =>
    intro entry hentry
    rcases List.mem_cons.mp hentry with rfl | hentry
    · exact ⟨_, passed, ends⟩
    · exact ih entry hentry

section Fields

variable {fields : List (Field ε σ)}
  (hread : ∀ field ∈ fields, ∀ d m, Follows m Ignored (field.read d) (skip (ε := Empty)))

include hread

/-- A member that is read is passed over. -/
theorem skip_of_namedField {name : String} {d d' : σ} {value rest : Source}
    (h : namedField fields name d value = .ok d' rest) :
    skip (ε := Empty) value = .ok () rest := by
  rcases namedField_ok h with ⟨-, -, hskip⟩ | ⟨field, hfield, -, -, h⟩
  · obtain ⟨_, hskip, -⟩ := follows_skip (δ := Empty) _ (Nat.le_refl _) hskip
    exact hskip
  · obtain ⟨_, hskip, -⟩ := hread field hfield d _ (Nat.le_refl _) h
    exact hskip

theorem endsAs_members (h : Walk turns first s entries r) (d : σ) :
    EndsAs r (entries.foldlM (takeMember fields) d)
      (members string (namedField fields) turns first d s) := by
  induction h generalizing d with
  | stop last =>
    obtain ⟨_, hmore, rfl, -⟩ := follows_more (δ := ε) '\x7d' _ (Nat.le_refl _) last
    exact bind_of_ok hmore
  | @step turns first s s₁ s₂ value rest r name entries another named colon passed _ later ih =>
    obtain ⟨_, hmore, rfl, -⟩ := follows_more (δ := ε) '\x7d' _ (Nat.le_refl _) another
    obtain ⟨_, hkey, rfl, -⟩ := follows_string (δ := ε) (Nat.le_refl _) named
    obtain ⟨_, hcolon, -, -⟩ := follows_expect (δ := ε) ':' (Nat.le_refl _) colon
    have hmembers : members string (namedField fields) (turns + 1) first d s =
        (namedField fields name d >>= members string (namedField fields) turns false) value := by
      rw [members, bind_of_ok hmore]
      simp only [if_true]
      rw [bind_of_ok hkey, bind_of_ok hcolon]
    rw [hmembers, List.foldlM_cons]
    cases hmember : namedField fields name d value with
    | ok d' rest' =>
      -- what is read ends where what is passed over ends
      have hskip := skip_of_namedField hread hmember
      rw [passed] at hskip
      cases hskip
      have htake : takeMember fields d (name, value) = .ok d' := by
        rw [takeMember, hmember]
        rfl
      rw [bind_of_ok hmember, htake]
      exact ih d'
    | error e t =>
      have htake : takeMember fields d (name, value) = .error e := by
        rw [takeMember, hmember]
        rfl
      rw [bind_of_error hmember, htake]
      exact ⟨t, rfl⟩

end Fields

end Walk

theorem walk_of_entries {s r : Source} {entries : List (String × Source)}
    (h : Reader.entries (ε := Empty) s = .ok entries r) :
    ∃ t u, expect (ε := Empty) '\x7b' s = .ok () t ∧ Walk t.length true t entries u ∧
      close (ε := Empty) '\x7d' u = .ok () r := by
  obtain ⟨_, t, hopen, h⟩ := bind_ok h
  rw [get_bind] at h
  obtain ⟨u, hmembers, hclose⟩ := closedBy_ok h
  obtain ⟨new, rfl, hwalk⟩ := Walk.of_members hmembers
  exact ⟨t, u, hopen, hwalk, hclose⟩

/-- **A record is what its members make of it**, one after the other. -/
theorem endsAs_object {fields : List (Field ε σ)}
    (hread : ∀ field ∈ fields, ∀ d m, Follows m Ignored (field.read d) (skip (ε := Empty)))
    {s r : Source} {entries : List (String × Source)}
    (h : Reader.entries (ε := Empty) s = .ok entries r) (d : σ) :
    EndsAs r (entries.foldlM (takeMember fields) d)
      (object string (namedField fields) d s) := by
  obtain ⟨t, u, hopen, hwalk, hclose⟩ := walk_of_entries h
  obtain ⟨_, hopen, -⟩ := follows_expect (δ := ε) '\x7b' (Nat.le_refl _) hopen
  obtain ⟨_, hclose, -⟩ := follows_close (δ := ε) '\x7d' (Nat.le_refl _) hclose
  have hends := hwalk.endsAs_members hread d
  rw [object, bind_of_ok hopen, get_bind]
  cases hfold : entries.foldlM (takeMember fields) d with
  | ok d' =>
    rw [hfold] at hends
    simp only [EndsAs] at hends ⊢
    simp only [closedBy, hends, hclose]
  | error e =>
    rw [hfold] at hends
    obtain ⟨v, hends⟩ := hends
    simp only [EndsAs, closedBy, hends]
    cases close (ε := ε) '\x7d' v with
    | ok _ w => exact ⟨w, rfl⟩
    | error _ w => exact ⟨w, rfl⟩

/-! ## Value by value -/

/-- A value that has to be there. -/
def required : Option α → Except (Failure ε) α
  | some a => .ok a
  | none => .error .unreadable

/-- **What is read of a member's value is what its text is.** -/
theorem outcome_eq_readAll {x : Reader ε α} {y : Reader δ α} (hlocal : Local 1 .ending x y)
    (hlocal' : Local 1 .ending y x) (hblank : ∀ s, y (dropSpaces s) = y s)
    (hskip : ∀ m, Follows m Ignored x (skip (ε := Empty))) {value : Source} (h : Spelled value) :
    outcome (x value) = required (y.readAll (textOf value)).toOption := by
  obtain ⟨rest, hpassed, hend⟩ := h
  obtain ⟨t, rfl, -⟩ := moves_skip.passes hpassed
  rw [textOf_append hpassed, readAll, hblank]
  cases hx : x (t ++ rest) with
  | ok a r =>
    obtain ⟨_, hskip, -⟩ := hskip _ (Nat.le_refl _) hx
    rw [hpassed] at hskip
    cases hskip
    obtain ⟨u, hu, -, hy⟩ := hlocal.reads hx
    obtain rfl := List.append_cancel_right hu
    have hnil : y t = .ok a [] := by
      rw [← List.append_nil t]
      exact hy [] (.inr trivial)
    rw [hnil]
    rfl
  | error e r =>
    obtain rfl := hlocal.plain hx
    cases hy : y t with
    | error e' r' => rfl
    | ok a r' =>
      -- the text cannot be read either, since it would be read with the rest behind it
      obtain ⟨u, rfl, -, hread⟩ := hlocal'.reads hy
      have hsame : Sight.ending.Same r' (r' ++ rest) := by
        cases r' with
        | nil => exact .inr hend.stops
        | cons piece r' => exact .inl rfl
      have hok := hread _ hsame
      rw [List.append_assoc, hok] at hx
      cases hx

theorem value_dropSpaces (nesting : Nat) (s : Source) :
    value (ε := ε) nesting (dropSpaces s) = value nesting s := by
  have hscalar (onArray onObject : Reader ε Json) :
      scalarOr onArray onObject (dropSpaces s) = scalarOr onArray onObject s := by
    obtain ⟨found, hlook⟩ := look_eq (ε := ε) s
    have hlook' := (look_congr (dropSpaces_dropSpaces s)).trans hlook
    rw [scalarOr, bind_of_ok hlook', bind_of_ok hlook]
  cases nesting with
  | zero => exact hscalar _ _
  | succ nesting => exact hscalar _ _

theorem outcome_value (nesting : Nat) {source : Source} (h : Spelled source) :
    outcome (value (ε := ε) nesting source) = required (valueOf? nesting (textOf source)) :=
  outcome_eq_readAll (local_value nesting) (local_value nesting) (value_dropSpaces nesting)
    (skip_follows insertMember nesting) h

end Reader

end ClusterAccess.Json
