import ClusterAccess.Json.Reader

/-!
# Places in a text

A place in a JSON text is known by how many brackets are open there and whether a string is.  Both
can be told by walking through the text from its start, piece by piece, without reading any value.
Outside of strings only few characters can stand; inside of one everything can.

A reader that gives up in the middle of a value leaves the source at a place that a reader of the
whole text never pauses at.  Walking tells such places apart: between two members of the outermost
object one bracket is open and no string is.  If somebody takes the inside of strings for the
outside, then, as far as the text goes on for both, it stays so (`Opposite.walk`).
-/

namespace ClusterAccess.Json

open Text (Piece)

inductive Mode where
  | outside
  | inside
  /-- In a string, after a backslash. -/
  | escaped
deriving DecidableEq

structure Place where
  mode : Mode
  /-- How many brackets are open. -/
  opened : Nat
deriving DecidableEq

/-- The place outside of strings at which some brackets are open. -/
abbrev outside (opened : Nat) : Place := ⟨.outside, opened⟩

abbrev inside (opened : Nat) : Place := ⟨.inside, opened⟩

/-- The characters that can stand outside of strings, brackets and separators apart. -/
def isBare (c : Char) : Bool :=
  [' ', '\t', '\n', '\r', '0', '1', '2', '3', '4', '5', '6', '7', '8', '9', '+', '-', '.', 'E',
    'a', 'e', 'f', 'l', 'n', 'r', 's', 't', 'u'].contains c

namespace Place

/-- The place after a character that is outside of strings. -/
def outsideStep (opened : Nat) (c : Char) : Option Place :=
  if c = '"' then some (inside opened)
  else if c = '[' ∨ c = '\x7b' then some (outside (opened + 1))
  else if c = ']' ∨ c = '\x7d' then
    match opened with
    | 0 => none
    | opened + 1 => some (outside opened)
  else if c = ',' ∨ c = ':' then if opened = 0 then none else some (outside opened)
  else if isBare c then some (outside opened)
  else none

/-- The place after a piece that is inside of a string. -/
def insideStep (opened : Nat) (piece : Piece) : Place :=
  if piece = .char '"' then outside opened
  else if piece = .char '\\' then ⟨.escaped, opened⟩
  else inside opened

/-- The place after a piece; `none` if the piece cannot stand there. -/
def step : Place → Piece → Option Place
  | ⟨.outside, _⟩, .stray _ => none
  | ⟨.outside, opened⟩, .char c => outsideStep opened c
  | ⟨.inside, opened⟩, piece => some (insideStep opened piece)
  | ⟨.escaped, opened⟩, _ => some (inside opened)

/-- The place after a text. -/
def walk (p : Place) : Source → Option Place
  | [] => some p
  | piece :: rest => (p.step piece).bind (walk · rest)

theorem walk_append (p : Place) (s t : Source) : p.walk (s ++ t) = (p.walk s).bind (walk · t) := by
  induction s generalizing p with
  | nil => rfl
  | cons piece s ih =>
    rw [List.cons_append, walk, walk]
    cases p.step piece with
    | none => rfl
    | some q => exact ih q

/-! ## Under more brackets -/

/-- The same place with more brackets around everything. -/
def under (p : Place) (n : Nat) : Place := { p with opened := p.opened + n }

theorem outsideStep_under {opened : Nat} {c : Char} {q : Place}
    (h : outsideStep opened c = some q) (n : Nat) :
    outsideStep (opened + n) c = some (q.under n) := by
  unfold outsideStep at h ⊢
  by_cases hquote : c = '"'
  · rw [if_pos hquote] at h ⊢
    cases h
    rfl
  rw [if_neg hquote] at h ⊢
  by_cases hopen : c = '[' ∨ c = '\x7b'
  · rw [if_pos hopen] at h ⊢
    cases h
    rw [under, Nat.add_right_comm]
  rw [if_neg hopen] at h ⊢
  by_cases hclose : c = ']' ∨ c = '\x7d'
  · rw [if_pos hclose] at h ⊢
    cases opened with
    | zero => cases h
    | succ opened =>
      cases h
      rw [Nat.add_right_comm]
      rfl
  rw [if_neg hclose] at h ⊢
  by_cases hseparator : c = ',' ∨ c = ':'
  · rw [if_pos hseparator] at h ⊢
    by_cases hzero : opened = 0
    · rw [if_pos hzero] at h
      cases h
    · rw [if_neg hzero] at h
      rw [if_neg (by omega)]
      cases h
      rfl
  rw [if_neg hseparator] at h ⊢
  by_cases hbare : isBare c = true
  · rw [if_pos hbare] at h ⊢
    cases h
    rfl
  · rw [if_neg hbare] at h
    cases h

theorem insideStep_under (opened : Nat) (piece : Piece) (n : Nat) :
    insideStep (opened + n) piece = (insideStep opened piece).under n := by
  unfold insideStep
  by_cases hquote : piece = .char '"'
  · rw [if_pos hquote, if_pos hquote]
    rfl
  by_cases hslash : piece = .char '\\'
  · rw [if_neg hquote, if_neg hquote, if_pos hslash, if_pos hslash]
    rfl
  · rw [if_neg hquote, if_neg hquote, if_neg hslash, if_neg hslash]
    rfl

theorem step_under {p q : Place} {piece : Piece} (h : p.step piece = some q) (n : Nat) :
    (p.under n).step piece = some (q.under n) := by
  obtain ⟨mode, opened⟩ := p
  cases mode with
  | outside =>
    cases piece with
    | stray byte => cases h
    | char c => exact outsideStep_under h n
  | inside =>
    cases h
    exact congrArg some (insideStep_under opened piece n)
  | escaped =>
    cases h
    rfl

theorem walk_under {p q : Place} {s : Source} (h : p.walk s = some q) (n : Nat) :
    (p.under n).walk s = some (q.under n) := by
  induction s generalizing p with
  | nil =>
    cases h
    rfl
  | cons piece s ih =>
    obtain ⟨p', hstep, hwalk⟩ := Option.bind_eq_some_iff.mp h
    exact Option.bind_eq_some_iff.mpr ⟨p'.under n, step_under hstep n, ih hwalk⟩

/-! ## Single pieces -/

/-- A quotation mark opens a string; every other character outside leaves one outside, and is no
backslash. -/
theorem outsideStep_cases {opened : Nat} {c : Char} {q : Place}
    (h : outsideStep opened c = some q) :
    (c = '"' ∧ q = inside opened) ∨ (c ≠ '"' ∧ c ≠ '\\' ∧ ∃ n, q = outside n) := by
  have hslash : c ≠ '\\' := by
    rintro rfl
    cases h
  unfold outsideStep at h
  by_cases hquote : c = '"'
  · rw [if_pos hquote] at h
    exact .inl ⟨hquote, (Option.some.inj h).symm⟩
  · refine .inr ⟨hquote, hslash, ?_⟩
    rw [if_neg hquote] at h
    split at h
    · exact ⟨_, (Option.some.inj h).symm⟩
    split at h
    · cases opened with
      | zero => cases h
      | succ opened => exact ⟨_, (Option.some.inj h).symm⟩
    split at h
    · split at h
      · cases h
      · exact ⟨_, (Option.some.inj h).symm⟩
    split at h
    · exact ⟨_, (Option.some.inj h).symm⟩
    · cases h

theorem insideStep_char {c : Char} (hquote : c ≠ '"') (hslash : c ≠ '\\') (opened : Nat) :
    insideStep opened (.char c) = inside opened := by
  rw [insideStep, if_neg fun h => hquote (Piece.char.inj h),
    if_neg fun h => hslash (Piece.char.inj h)]

theorem step_bare {c : Char} (h : isBare c = true) (opened : Nat) :
    (outside opened).step (.char c) = some (outside opened) := by
  have hne {d : Char} (hd : isBare d = false) : c ≠ d := by
    rintro rfl
    rw [h] at hd
    cases hd
  change outsideStep opened c = _
  unfold outsideStep
  rw [if_neg (hne rfl), if_neg (not_or.mpr ⟨hne rfl, hne rfl⟩),
    if_neg (not_or.mpr ⟨hne rfl, hne rfl⟩), if_neg (not_or.mpr ⟨hne rfl, hne rfl⟩), if_pos h]

theorem isBare_of_isSpace {c : Char} (h : Reader.isSpace c = true) : isBare c = true := by
  simp only [Reader.isSpace, Bool.or_eq_true, decide_eq_true_eq] at h
  rcases h with ((rfl | rfl) | rfl) | rfl <;> rfl

/-- Text without quotation marks and backslashes does not end a string. -/
theorem walk_inside {text : List Char} (h : ∀ c ∈ text, c ≠ '"' ∧ c ≠ '\\') (opened : Nat) :
    (inside opened).walk (text.map .char) = some (inside opened) := by
  induction text with
  | nil => rfl
  | cons c text ih =>
    obtain ⟨hquote, hslash⟩ := h c List.mem_cons_self
    rw [List.map_cons, walk, step, insideStep_char hquote hslash, Option.bind_some]
    exact ih fun d hd => h d (List.mem_cons_of_mem _ hd)

/-- Whoever is not outside is inside a string after such text. -/
theorem walk_of_ne_outside {p : Place} (hp : p.mode ≠ .outside) {c : Char} {text : List Char}
    (h : ∀ d ∈ c :: text, d ≠ '"' ∧ d ≠ '\\') :
    p.walk ((c :: text).map .char) = some (inside p.opened) := by
  obtain ⟨mode, opened⟩ := p
  cases mode with
  | outside => exact absurd rfl hp
  | inside => exact walk_inside h opened
  | escaped =>
    rw [List.map_cons, walk, step, Option.bind_some]
    exact walk_inside (fun d hd => h d (List.mem_cons_of_mem _ hd)) opened

end Place

/-! ## Passing over a part of a source -/

/-- From a place, what stands between two sources leads to another place. -/
def Passes (p : Place) (s r : Source) (q : Place) : Prop := ∃ t, s = t ++ r ∧ p.walk t = some q

namespace Passes

variable {p q o : Place} {s t r : Source}

theorem refl (p : Place) (s : Source) : Passes p s s p := ⟨[], rfl, rfl⟩

theorem one {piece : Piece} (h : p.step piece = some q) (s : Source) : Passes p (piece :: s) s q :=
  ⟨[piece], rfl, by rw [Place.walk, h]; rfl⟩

theorem trans (h : Passes p s t q) (h' : Passes q t r o) : Passes p s r o := by
  obtain ⟨u, rfl, hu⟩ := h
  obtain ⟨v, rfl, hv⟩ := h'
  refine ⟨u ++ v, (List.append_assoc _ _ _).symm, ?_⟩
  rw [Place.walk_append, hu]
  exact hv

theorem under (h : Passes p s r q) (n : Nat) : Passes (p.under n) s r (q.under n) := by
  obtain ⟨t, rfl, ht⟩ := h
  exact ⟨t, rfl, Place.walk_under ht n⟩

/-- The rest of a text is walked through from where one has come to. -/
theorem walk_eq (h : Passes p s r q) : p.walk s = q.walk r := by
  obtain ⟨t, rfl, ht⟩ := h
  rw [Place.walk_append, ht]
  rfl

theorem length_le (h : Passes p s r q) : r.length ≤ s.length := by
  obtain ⟨t, rfl, -⟩ := h
  rw [List.length_append]
  exact Nat.le_add_left _ _

end Passes

/-! ## Blanks -/

theorem dropSpaces_eq (s : Source) :
    ∃ blanks : List Char, (∀ c ∈ blanks, Reader.isSpace c = true) ∧
      s = blanks.map .char ++ Reader.dropSpaces s := by
  induction s with
  | nil => exact ⟨[], nofun, rfl⟩
  | cons piece s ih =>
    cases piece with
    | stray byte => exact ⟨[], nofun, rfl⟩
    | char c =>
      rw [Reader.dropSpaces]
      by_cases hc : Reader.isSpace c = true
      · obtain ⟨blanks, hblanks, hs⟩ := ih
        refine ⟨c :: blanks, fun d hd => ?_, ?_⟩
        · rcases List.mem_cons.mp hd with rfl | hd
          · exact hc
          · exact hblanks d hd
        · rw [if_pos hc, List.map_cons, List.cons_append, ← hs]
      · exact ⟨[], nofun, by rw [if_neg hc]; rfl⟩

theorem passes_dropSpaces (opened : Nat) (s : Source) :
    Passes (outside opened) s (Reader.dropSpaces s) (outside opened) := by
  induction s with
  | nil => exact .refl _ _
  | cons piece s ih =>
    cases piece with
    | stray byte => exact .refl _ _
    | char c =>
      rw [Reader.dropSpaces]
      by_cases hc : Reader.isSpace c = true
      · rw [if_pos hc]
        exact (Passes.one (Place.step_bare (Place.isBare_of_isSpace hc) opened) s).trans ih
      · rw [if_neg hc]
        exact .refl _ _

theorem ne_of_isSpace {c : Char} (h : Reader.isSpace c = true) : c ≠ '"' ∧ c ≠ '\\' := by
  constructor <;>
  · rintro rfl
    cases h

/-- Whoever takes the inside of a string for blanks, and a mark after them, stays inside. -/
theorem walk_blanks_mark {p : Place} (hp : p.mode ≠ .outside) {s t : Source} {c : Char}
    (hs : Reader.dropSpaces s = .char c :: t) (hc : c ≠ '"' ∧ c ≠ '\\') :
    p.walk s = (inside p.opened).walk t := by
  obtain ⟨blanks, hblanks, hsplit⟩ := dropSpaces_eq s
  rw [hs] at hsplit
  have htext : s = (blanks ++ [c]).map .char ++ t := by
    rw [hsplit, List.map_append, List.append_assoc]
    rfl
  have hall : ∀ d ∈ blanks ++ [c], d ≠ '"' ∧ d ≠ '\\' := by
    intro d hd
    rcases List.mem_append.mp hd with hd | hd
    · exact ne_of_isSpace (hblanks d hd)
    · rw [List.mem_singleton.mp hd]
      exact hc
  rw [htext, Place.walk_append]
  cases hmarks : blanks ++ [c] with
  | nil => exact absurd hmarks (List.append_ne_nil_of_right_ne_nil _ (List.cons_ne_nil _ _))
  | cons d text =>
    rw [hmarks] at hall
    rw [Place.walk_of_ne_outside hp hall]
    rfl

/-! ## Opposite places -/

/-- One of two walkers takes for outside what the other one takes for inside. -/
inductive Opposite : Place → Place → Prop where
  | outer (n m : Nat) : Opposite (outside n) (inside m)
  | inner (n m : Nat) : Opposite (inside n) (outside m)

namespace Opposite

variable {p q p' q' : Place}

theorem symm (h : Opposite p q) : Opposite q p := by
  cases h with
  | outer n m => exact .inner m n
  | inner n m => exact .outer m n

theorem step_outer {n m : Nat} {piece : Piece} (hp : (outside n).step piece = some p')
    (hq : (inside m).step piece = some q') : Opposite p' q' := by
  cases piece with
  | stray byte => cases hp
  | char c =>
    obtain rfl : Place.insideStep m (.char c) = q' := Option.some.inj hq
    rcases Place.outsideStep_cases hp with ⟨rfl, rfl⟩ | ⟨hquote, hslash, k, rfl⟩
    · exact .inner n m
    · rw [Place.insideStep_char hquote hslash]
      exact .outer k m

theorem step {piece : Piece} (h : Opposite p q) (hp : p.step piece = some p')
    (hq : q.step piece = some q') : Opposite p' q' := by
  cases h with
  | outer n m => exact step_outer hp hq
  | inner n m => exact (step_outer hq hp).symm

/-- **Opposite walkers stay opposite**, as far as the text goes on for both. -/
theorem walk {s : Source} (h : Opposite p q) (hp : p.walk s = some p') (hq : q.walk s = some q') :
    Opposite p' q' := by
  induction s generalizing p q with
  | nil =>
    cases hp
    cases hq
    exact h
  | cons piece s ih =>
    obtain ⟨p₁, hp₁, hp⟩ := Option.bind_eq_some_iff.mp hp
    obtain ⟨q₁, hq₁, hq⟩ := Option.bind_eq_some_iff.mp hq
    exact ih (h.step hp₁ hq₁) hp hq

end Opposite

/-! ## Where a value ends -/

/-- What follows a member's value. -/
def Delimited (r : Source) : Prop :=
  ∃ c t, Reader.dropSpaces r = .char c :: t ∧ (c = ',' ∨ c = '\x7d')

theorem Delimited.dropSpaces_append {s r : Source} (h : Delimited (s ++ r))
    (hwalk : (outside 0).walk s = some (outside 0)) :
    Reader.dropSpaces (s ++ r) = Reader.dropSpaces r := by
  induction s with
  | nil => rfl
  | cons piece s ih =>
    obtain ⟨p, hstep, hrest⟩ := Option.bind_eq_some_iff.mp hwalk
    obtain ⟨d, t, hd, hmark⟩ := h
    cases piece with
    | stray byte => cases hstep
    | char c =>
      rw [List.cons_append, Reader.dropSpaces] at hd ⊢
      by_cases hc : Reader.isSpace c = true
      · rw [if_pos hc] at hd ⊢
        rw [Place.step_bare (Place.isBare_of_isSpace hc)] at hstep
        cases hstep
        exact ih ⟨d, t, hd, hmark⟩ hrest
      · -- a comma or a closing bracket cannot stand where no bracket is open
        rw [if_neg hc] at hd
        obtain rfl : c = d := Piece.char.inj (List.cons.inj hd).1
        rcases hmark with rfl | rfl <;> cases hstep

/-- **Two readers of a value that both go on with what may follow it have read the same value.** -/
theorem Delimited.agree {s r₁ r₂ : Source} (h₁ : Passes (outside 0) s r₁ (outside 0))
    (h₂ : Passes (outside 0) s r₂ (outside 0)) (d₁ : Delimited r₁) (d₂ : Delimited r₂) :
    Reader.dropSpaces r₁ = Reader.dropSpaces r₂ := by
  obtain ⟨t₁, rfl, hwalk₁⟩ := h₁
  obtain ⟨t₂, hs, hwalk₂⟩ := h₂
  rcases List.append_eq_append_iff.mp hs with ⟨t, rfl, rfl⟩ | ⟨t, rfl, rfl⟩
  · rw [Place.walk_append, hwalk₁] at hwalk₂
    exact d₁.dropSpaces_append hwalk₂
  · rw [Place.walk_append, hwalk₂] at hwalk₁
    exact (d₂.dropSpaces_append hwalk₁).symm

end ClusterAccess.Json
