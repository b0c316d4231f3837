import ClusterAccess.Proofs.Json.Forgiving

/-!
# Where values begin

The members of an object can be told together with the places at which their values begin, without
reading any of them (`entries?`), and a number can be told at the place where it begins
(`numberAt?`).  A record that reads a field once has read it at the place of the only member with
that name, or not at all (`Met`); and whoever reads a value and gets a number has got the one that
is told there.
-/

namespace ClusterAccess.Json

variable {ε δ σ : Type}

/-! ## Members -/

namespace Reader

/-- What a reader reads at the front of a source. -/
def result? {α : Type} (reader : Reader ε α) (s : Source) : Option α :=
  match reader s with
  | .ok a _ => some a
  | .error _ _ => none

theorem result?_of_ok {α : Type} {reader : Reader ε α} {s r : Source} {a : α}
    (h : reader s = .ok a r) : result? reader s = some a := by
  rw [result?, h]

/-- Notes a member's name and the source that its value begins. -/
def noteEntry (name : String) (value : Source) (before : List (String × Source)) :
    List (String × Source) := before ++ [(name, value)]

/-- The members of an object, in order. -/
def entries : Reader ε (List (String × Source)) := object string (passWith noteEntry) []

end Reader

theorem eq_ok_of_toOption {α : Type} {x : Except ε α} {a : α} (h : x.toOption = some a) :
    x = .ok a := by
  cases x with
  | ok b => rw [Option.some.inj h]
  | error e => cases h

/-- The members of the object that a whole source is, each with the source that its value begins. -/
def entries? (source : Source) : Option (List (String × Source)) :=
  match (Reader.entries (ε := Empty)).readAll source with
  | .ok entries => some entries
  | .error _ => none

theorem entries?_of_ok {s r : Source} {entries : List (String × Source)}
    (h : Reader.entries (ε := Empty) s = .ok entries r) (hblank : Reader.dropSpaces r = []) :
    entries? s = some entries := by
  simp only [entries?, Reader.readAll, h, hblank, if_true]

/-- Where the values of the members of a name begin. -/
def valuesOf (name : String) (entries : List (String × Source)) : List Source :=
  (entries.filter fun entry => entry.1 = name).map Prod.snd

theorem valuesOf_append (name : String) (entries later : List (String × Source)) :
    valuesOf name (entries ++ later) = valuesOf name entries ++ valuesOf name later := by
  unfold valuesOf
  rw [List.filter_append, List.map_append]

theorem valuesOf_snoc (name member : String) (value : Source) (before : List (String × Source)) :
    valuesOf name (before ++ [(member, value)]) =
      valuesOf name before ++ if member = name then [value] else [] := by
  rw [valuesOf_append]
  congr 1
  unfold valuesOf
  split <;> simp [*]

theorem valuesOf_noteEntry (name member : String) (value : Source)
    (before : List (String × Source)) :
    valuesOf name (Reader.noteEntry member value before) =
      valuesOf name before ++ if member = name then [value] else [] :=
  valuesOf_snoc name member value before

/-- Where the values of the members of a name begin in the object that a whole source is. -/
def valuesOf? (name : String) (source : Source) : Option (List Source) :=
  (entries? source).map (valuesOf name)

/-! ## Fields that are met -/

/-- What is said of the place where a field has been read, if it has, stays true when other fields
are read. -/
structure Keeps (fields : List (Field ε σ)) (field : Field ε σ) (P : σ → Option Source → Prop) :
    Prop where
  marks : Marks fields
  mem : field ∈ fields
  alone : ∀ other ∈ fields, other.name = field.name → other = field
  reads : ∀ ⦃d s d' r⦄, field.read d s = .ok d' r → P d' (some s)
  keeps : ∀ other ∈ fields, other.name ≠ field.name → ∀ ⦃d s d' r found⦄,
    other.read d s = .ok d' r → P d found → P d' found

/-- The field has been read at the place of the only member with its name, or there is none. -/
def Met (field : Field ε σ) (P : σ → Option Source → Prop) (d : σ)
    (entries : List (String × Source)) : Prop :=
  ∃ found : Option Source, valuesOf field.name entries = found.toList ∧
    field.isRead d = found.isSome ∧ P d found

theorem Met.nothing {field : Field ε σ} {P : σ → Option Source → Prop} {initial : σ}
    (hread : field.isRead initial = false) (h : P initial none) : Met field P initial [] :=
  ⟨none, rfl, hread, h⟩

/-- **A field that is read once is met where its member is.** -/
theorem Keeps.preserves {fields : List (Field ε σ)} {field : Field ε σ}
    {P : σ → Option Source → Prop} (hkeeps : Keeps fields field P) :
    Preserves fields Reader.noteEntry (Met field P) := by
  rintro name d d' before s r ⟨found, hfound, hisRead, hP⟩ hread
  rw [Met, valuesOf_noteEntry, hfound]
  rcases namedField_ok hread with ⟨hnone, rfl, -⟩ | ⟨other, hother, rfl, hfirst, hread⟩
  · have hname : ¬ name = field.name := fun h => hnone field hkeeps.mem h.symm
    rw [if_neg hname, List.append_nil]
    exact ⟨found, rfl, hisRead, hP⟩
  · have hmark := hkeeps.marks other hother hread field hkeeps.mem
    by_cases hname : other.name = field.name
    · -- the field has not been read before, so there was no member of its name
      obtain rfl := hkeeps.alone other hother hname
      have hnew : found = none := by
        rw [← Option.not_isSome_iff_eq_none, ← hisRead, hfirst]
        exact Bool.false_ne_true
      rw [if_pos rfl, hnew]
      refine ⟨some s, rfl, ?_, hkeeps.reads hread⟩
      rw [hmark, decide_eq_true rfl, Bool.or_true]
      rfl
    · have hname' : ¬ field.name = other.name := fun h => hname h.symm
      rw [if_neg hname, List.append_nil]
      refine ⟨found, rfl, ?_, hkeeps.keeps other hother hname hread hP⟩
      rw [hmark, decide_eq_false hname', Bool.or_false, hisRead]

/-- What is told where a first field begins is what is seen of the record, if the other fields do
not touch it. -/
theorem Keeps.of_cons {β : Type} {field : Field ε σ} {rest : List (Field ε σ)} {view : σ → Option β}
    {told : Source → Option β} (marks : Marks (field :: rest))
    (reads : ∀ ⦃d s d' r⦄, field.read d s = .ok d' r → view d' = told s)
    (others : ∀ other ∈ rest, other.name ≠ field.name ∧
      ∀ ⦃d s d' r⦄, other.read d s = .ok d' r → view d' = view d) :
    Keeps (field :: rest) field fun d found => view d = found.bind told where
  marks := marks
  mem := .head _
  alone other hother hname := by
    rcases List.mem_cons.mp hother with rfl | htail
    · rfl
    · exact absurd hname (others other htail).1
  reads := reads
  keeps other hother hname d s d' r found hread hfound := by
    rcases List.mem_cons.mp hother with rfl | htail
    · exact absurd rfl hname
    · rw [(others other htail).2 hread, hfound]

/-! ## Records -/

namespace Reader

/-- A record is read from an array or from an object. -/
theorem record_ok {fields : Nat → List (Field ε σ)} {initial d : σ} {nesting : Nat} {s r : Source}
    (h : record fields initial (nesting + 1) s = .ok d r) :
    (∃ t u, dropSpaces s = .char '[' :: t ∧
      positional (fields nesting) true initial t = .ok d u) ∨
    (∃ t, dropSpaces s = .char '\x7b' :: t ∧
      object string (namedField (fields nesting)) initial s = .ok d r) := by
  rcases look_cases (ε := ε) s with ⟨c, u, hdrop, hlook⟩ | ⟨-, hlook⟩
  · rw [record, bind_of_ok hlook] at h
    by_cases hbracket : c = '['
    · subst hbracket
      obtain ⟨_, v, hadvance, h⟩ := bind_ok h
      cases hadvance
      obtain ⟨w, h, -⟩ := closedBy_ok h
      exact .inl ⟨u, w, hdrop, h⟩
    by_cases hbrace : c = '\x7b'
    · subst hbrace
      rw [← hdrop] at h
      exact .inr ⟨u, hdrop, (object_dropSpaces initial s).symm.trans h⟩
    · simp only [Option.some.injEq, hbracket, hbrace, imp_self] at h
      cases h
  · rw [record, bind_of_ok hlook] at h
    cases h

/-- What every field keeps, the values of an array keep. -/
theorem positional_keeps {P : σ → Prop} {fields : List (Field ε σ)}
    (hkeeps : ∀ field ∈ fields, ∀ ⦃d s d' r⦄, field.read d s = .ok d' r → P d → P d')
    {first : Bool} {d d' : σ} {s r : Source} (h : positional fields first d s = .ok d' r)
    (hP : P d) : P d' := by
  induction fields generalizing first d s with
  | nil =>
    cases h
    exact hP
  | cons field rest ih =>
    obtain ⟨another, t, -, h⟩ := bind_ok h
    cases another with
    | false =>
      cases h
      exact hP
    | true =>
      obtain ⟨built, u, hread, h⟩ := bind_ok h
      exact ih (fun other hother => hkeeps other (.tail _ hother)) h
        (hkeeps field (.head _) hread hP)

end Reader

/-! ## Numbers -/

/-- The number literal that a value is, told by its beginning. -/
def literalAt? (value : Source) : Option Literal :=
  Reader.result? (Reader.literal (ε := Empty)) (Reader.dropSpaces value)

/-- The number that a value is. -/
def numberAt? (value : Source) : Option Number := (literalAt? value).bind Literal.number?

namespace Reader

theorem literalAt?_of_literal {s : Source} {l : Literal} {t : Source}
    (h : literal (ε := ε) (dropSpaces s) = .ok l t) : literalAt? s = some l := by
  obtain ⟨_, hl, rfl, -⟩ := follows_literal (δ := Empty) (Nat.le_refl _) h
  exact result?_of_ok hl

theorem literal_of_literalAt? {s : Source} {l : Literal} (h : literalAt? s = some l) :
    ∃ t, literal (ε := ε) (dropSpaces s) = .ok l t := by
  unfold literalAt? result? at h
  split at h
  · rename_i l' t hl
    obtain rfl := Option.some.inj h
    obtain ⟨_, hl', rfl, -⟩ := follows_literal (δ := ε) (Nat.le_refl _) hl
    exact ⟨t, hl'⟩
  · cases h

theorem number_of_literal {s t : Source} {l : Literal} {n : Number}
    (h : literal (ε := ε) s = .ok l t) (hn : l.number? = some n) :
    number (ε := ε) s = .ok n t := by
  rw [number, bind_of_ok h, hn]
  rfl

theorem number_ok {s r : Source} {n : Number} (h : number (ε := ε) s = .ok n r) :
    ∃ l, literal (ε := ε) s = .ok l r ∧ l.number? = some n := by
  obtain ⟨l, t, hl, h⟩ := bind_ok h
  cases hn : l.number? with
  | none =>
    rw [hn] at h
    cases h
  | some n' =>
    rw [hn] at h
    cases h
    exact ⟨l, hl, hn⟩

/-- No literal begins with any of the characters that other values begin with. -/
theorem literal_ne_ok {c : Char} (hc : c ∈ ['"', '[', '\x7b', 'n', 't', 'f']) (t : Source)
    (l : Literal) (r : Source) : literal (ε := ε) (.char c :: t) ≠ .ok l r := by
  simp only [List.mem_cons, List.not_mem_nil, or_false] at hc
  rcases hc with rfl | rfl | rfl | rfl | rfl | rfl <;> exact nofun

/-- No literal begins with anything but a character. -/
theorem char_of_literal {s r : Source} {l : Literal} (h : literal (ε := ε) s = .ok l r) :
    ∃ c t, s = .char c :: t := by
  cases s with
  | nil => cases h
  | cons piece t =>
    cases piece with
    | char c => exact ⟨c, t, rfl⟩
    | stray byte => cases h

theorem number_of_none {s t : Source} {l : Literal} (h : literal (ε := ε) s = .ok l t)
    (hn : l.number? = none) : ∃ r, number (ε := ε) s = .error .unreadable r := by
  rw [number, bind_of_ok h, hn]
  exact ⟨_, rfl⟩

/-- Whoever reads a value and finds a literal reads it as a number. -/
theorem scalarOr_of_literal {onArray onObject : Reader ε Json} {s t : Source} {l : Literal}
    (h : literal (ε := ε) (dropSpaces s) = .ok l t) :
    scalarOr onArray onObject s = (Json.number <$> number) (dropSpaces s) := by
  obtain ⟨c, u, hdrop⟩ := char_of_literal h
  have hlook : look (ε := ε) s = .ok (some c) (.char c :: u) := by rw [look, hdrop]
  have hne (d : Char) (hd : d ∈ ['"', '[', '\x7b', 'n', 't', 'f']) : c ≠ d := by
    rintro rfl
    rw [hdrop] at h
    exact literal_ne_ok hd u l t h
  rw [scalarOr, bind_of_ok hlook, hdrop]
  simp only [hne '"' (by decide), hne '[' (by decide), hne '\x7b' (by decide), hne 'n' (by decide),
    hne 't' (by decide), hne 'f' (by decide), if_false]

theorem value_of_literal {nesting : Nat} {s t : Source} {l : Literal}
    (h : literal (ε := ε) (dropSpaces s) = .ok l t) :
    value (ε := ε) nesting s = (Json.number <$> number) (dropSpaces s) := by
  cases nesting with
  | zero => exact scalarOr_of_literal h
  | succ nesting => exact scalarOr_of_literal h

/-- A reader that has no number for the value at hand. -/
def NoNumber (x : Reader ε Json) : Prop := ∀ n s r, x s ≠ .ok (.number n) r

theorem noNumber_unreadable : NoNumber (unreadable : Reader ε Json) := by
  intro n s r h
  cases h

theorem noNumber_map {α : Type} {x : Reader ε α} {g : α → Json} (h : ∀ a n, g a ≠ .number n) :
    NoNumber (g <$> x) := by
  intro n s r hs
  obtain ⟨a, -, ha⟩ := map_ok hs
  exact h a n ha

theorem noNumber_keyword (text : List Char) {value : Json} (h : ∀ n, value ≠ .number n) :
    NoNumber (do keyword text; return value : Reader ε Json) := by
  intro n s r hs
  obtain ⟨u, t, -, hs⟩ := bind_ok hs
  cases hs
  exact h n rfl

/-- **Whoever reads a value has a number if and only if one is told there**, and the same. -/
theorem scalarOr_eq_number_iff {onArray onObject : Reader ε Json} (harray : NoNumber onArray)
    (hobject : NoNumber onObject) {s : Source} {n : Number} :
    (∃ r, scalarOr onArray onObject s = .ok (.number n) r) ↔ numberAt? s = some n := by
  rw [numberAt?, Option.bind_eq_some_iff]
  constructor
  · rintro ⟨r, h⟩
    obtain ⟨found, t, hlook, h⟩ := bind_ok h
    have hnoWord (text : List Char) {value : Json} (hvalue : ∀ n, value ≠ .number n) :=
      noNumber_keyword (ε := ε) text hvalue n t r
    cases found with
    | none => exact absurd h (noNumber_unreadable n t r)
    | some c =>
      -- of what may stand there only a literal is a number
      dsimp only at h
      split at h
      · exact absurd h (noNumber_map (fun _ _ h => by cases h) n t r)
      split at h
      · exact absurd h (harray n t r)
      split at h
      · exact absurd h (hobject n t r)
      split at h
      · exact absurd h (hnoWord _ fun _ h => by cases h)
      split at h
      · exact absurd h (hnoWord _ fun _ h => by cases h)
      split at h
      · exact absurd h (hnoWord _ fun _ h => by cases h)
      · obtain ⟨n', h, hn⟩ := map_ok h
        obtain ⟨l, hl, hnumber⟩ := number_ok h
        cases hn
        obtain ⟨found', hlook'⟩ := look_eq (ε := ε) s
        rw [hlook'] at hlook
        cases hlook
        exact ⟨l, literalAt?_of_literal hl, hnumber⟩
  · rintro ⟨l, hl, hnumber⟩
    obtain ⟨t, hl⟩ := literal_of_literalAt? (ε := ε) hl
    exact ⟨t, by rw [scalarOr_of_literal hl, map_of_ok (number_of_literal hl hnumber)]⟩

/-- A value that is read as a number is told to be that number. -/
theorem numberAt?_of_value {nesting : Nat} {s r : Source} {n : Number}
    (h : value (ε := ε) nesting s = .ok (.number n) r) : numberAt? s = some n := by
  cases nesting with
  | zero => exact (scalarOr_eq_number_iff noNumber_unreadable noNumber_unreadable).mp ⟨r, h⟩
  | succ nesting =>
    refine (scalarOr_eq_number_iff (noNumber_map ?_) (noNumber_map ?_)).mp ⟨r, h⟩
    · intro items n h
      cases h
    · intro members n h
      cases h

end Reader

end ClusterAccess.Json
