import ClusterAccess.Json.Reader

/-!
# Laws of readers

How readers follow one another, and what the simplest of them do.  Everything that is proved of
readers peels them apart by these laws, forwards (`bind_of_ok`) or backwards (`bind_ok`): a lemma
`x_of_..` or `x_char` says what a reader comes to, and `x_ok` what must have been the case.
-/

namespace ClusterAccess.Json.Reader

open Text (Piece)

variable {ε α β κ σ : Type} {s r : Source}

/-! ## One reader after the other -/

section Bind

variable {x : Reader ε α} {f : α → Reader ε β} {a : α} {b : β} {e : Failure ε}

theorem bind_of_ok (h : x s = .ok a r) : (x >>= f) s = f a r := by
  change EStateM.bind x f s = f a r
  rw [EStateM.bind, h]

theorem bind_of_error (h : x s = .error e r) : (x >>= f) s = .error e r := by
  change EStateM.bind x f s = .error e r
  rw [EStateM.bind, h]

theorem bind_ok (h : (x >>= f) s = .ok b r) : ∃ a t, x s = .ok a t ∧ f a t = .ok b r := by
  cases hx : x s with
  | ok a t =>
    rw [bind_of_ok hx] at h
    exact ⟨a, t, rfl, h⟩
  | error e t =>
    rw [bind_of_error hx] at h
    cases h

end Bind

section Map

variable {x : Reader ε α} {g : α → β} {a : α} {b : β} {e : Failure ε}

theorem map_of_ok (h : x s = .ok a r) : (g <$> x) s = .ok (g a) r := by
  change EStateM.map g x s = _
  rw [EStateM.map, h]

theorem map_of_error (h : x s = .error e r) : (g <$> x) s = .error e r := by
  change EStateM.map g x s = _
  rw [EStateM.map, h]

theorem map_ok (h : (g <$> x) s = .ok b r) : ∃ a, x s = .ok a r ∧ g a = b := by
  cases hx : x s with
  | ok a t =>
    rw [map_of_ok hx] at h
    cases h
    exact ⟨a, rfl, rfl⟩
  | error e t =>
    rw [map_of_error hx] at h
    cases h

end Map

theorem get_bind (f : Source → Reader ε β) : (get >>= f) s = f s s := rfl

theorem require_ok {found : Option α} {a : α} (h : require (ε := ε) found s = .ok a r) :
    found = some a ∧ s = r := by
  cases found with
  | none => cases h
  | some a =>
    cases h
    exact ⟨rfl, rfl⟩

/-! ## Single characters -/

/-- Whoever looks sees the character after the blanks, if it is one. -/
theorem look_cases (s : Source) :
    (∃ c t, dropSpaces s = .char c :: t ∧ look (ε := ε) s = .ok (some c) (.char c :: t)) ∨
      ((∀ c t, dropSpaces s ≠ .char c :: t) ∧ look (ε := ε) s = .ok none (dropSpaces s)) := by
  unfold look
  cases dropSpaces s with
  | nil => exact .inr ⟨nofun, rfl⟩
  | cons piece t =>
    cases piece with
    | char c => exact .inl ⟨c, t, rfl, rfl⟩
    | stray byte => exact .inr ⟨nofun, rfl⟩

theorem look_eq (s : Source) : ∃ found, look (ε := ε) s = .ok found (dropSpaces s) := by
  rcases look_cases (ε := ε) s with ⟨c, t, hs, hlook⟩ | ⟨-, hlook⟩
  · exact ⟨some c, by rw [hs, hlook]⟩
  · exact ⟨none, hlook⟩

section Characters

variable {c : Char} (hc : isSpace c = false)

include hc

theorem dropSpaces_char : dropSpaces (.char c :: s) = .char c :: s := by
  rw [dropSpaces, hc]
  rfl

theorem look_char : look (ε := ε) (.char c :: s) = .ok (some c) (.char c :: s) := by
  rw [look, dropSpaces_char hc]

theorem expect_char : expect (ε := ε) c (.char c :: s) = .ok () s := by
  rw [expect, bind_of_ok (look_char hc), if_pos rfl]
  rfl

theorem close_char : close (ε := ε) c (.char c :: s) = .ok () s := by
  rw [close, bind_of_ok (look_char hc)]
  simp only [if_true]
  rfl

theorem closedBy_of_ok {content : Reader ε α} {a : α} (h : content s = .ok a (.char c :: r)) :
    closedBy c content s = .ok a r := by
  simp only [closedBy, h, close_char hc]

end Characters

theorem dropSpaces_dropSpaces (s : Source) : dropSpaces (dropSpaces s) = dropSpaces s := by
  induction s with
  | nil => rfl
  | cons piece s ih =>
    cases piece with
    | stray byte => rfl
    | char c =>
      by_cases hc : isSpace c = true
      · rw [dropSpaces, if_pos hc, ih]
      · rw [dropSpaces_char (Bool.eq_false_iff.mpr hc), dropSpaces_char (Bool.eq_false_iff.mpr hc)]

theorem look_congr (h : dropSpaces s = dropSpaces r) : look (ε := ε) s = look r := by
  rw [look, h, ← look]

theorem expect_ok {c : Char} (h : expect (ε := ε) c s = .ok () r) :
    dropSpaces s = .char c :: r := by
  rcases look_cases (ε := ε) s with ⟨d, t, hs, hlook⟩ | ⟨-, hlook⟩
  · rw [expect, bind_of_ok hlook] at h
    split at h
    · rename_i hd
      cases h
      rw [hs, Option.some.inj hd]
      rfl
    · cases h
  · rw [expect, bind_of_ok hlook] at h
    cases h

theorem accept_of_pos {p : Char → Bool} {c : Char} (h : p c = true) :
    accept (ε := ε) p (.char c :: s) = .ok (some c) s := if_pos h

theorem accept_of_neg {p : Char → Bool} {c : Char} (h : ¬ p c = true) :
    accept (ε := ε) p (.char c :: s) = .ok none (.char c :: s) := if_neg h

/-! ## Arrays and objects -/

section Brackets

variable {c : Char} {first another : Bool}

theorem close_ok (h : close (ε := ε) c s = .ok () r) : dropSpaces s = .char c :: r := by
  rcases look_cases (ε := ε) s with ⟨d, t, hs, hlook⟩ | ⟨-, hlook⟩
  · rw [close, bind_of_ok hlook] at h
    dsimp only at h
    by_cases hd : d = c
    · rw [if_pos hd] at h
      cases h
      rw [hs, hd]
      rfl
    · rw [if_neg hd] at h
      split at h
      · obtain ⟨u, t', -, h⟩ := bind_ok h
        obtain ⟨found, t'', -, h⟩ := bind_ok h
        cases h
      · cases h
  · rw [close, bind_of_ok hlook] at h
    cases h

theorem closedBy_ok {content : Reader ε α} {a : α}
    (h : closedBy c content s = .ok a r) :
    ∃ t, content s = .ok a t ∧ close (ε := ε) c t = .ok () r := by
  cases hs : content s with
  | ok a' t =>
    cases ht : close (ε := ε) c t with
    | ok u r' =>
      simp only [closedBy, hs, ht] at h
      cases h
      exact ⟨t, rfl, ht⟩
    | error e r' =>
      simp only [closedBy, hs, ht] at h
      cases h
  | error e t =>
    simp only [closedBy, hs] at h
    split at h <;> cases h

theorem more_congr (h : dropSpaces s = dropSpaces r) :
    more (ε := ε) c first s = more c first r := by
  rcases look_cases (ε := ε) s with ⟨d, t, -, hlook⟩ | ⟨-, hlook⟩
  · rw [more, bind_of_ok hlook, bind_of_ok (look_congr h ▸ hlook)]
  · rw [more, bind_of_ok hlook, bind_of_ok (look_congr h ▸ hlook)]

/-- What stands where a member is looked for. -/
theorem more_ok (h : more (ε := ε) c first s = .ok another r) :
    (another = false ∧ ∃ t, dropSpaces s = .char c :: t ∧ r = .char c :: t) ∨
      (another = true ∧ first = true ∧ r = dropSpaces s) ∨
      (another = true ∧ first = false ∧ ∃ t, dropSpaces s = .char ',' :: t ∧ r = dropSpaces t) := by
  rcases look_cases (ε := ε) s with ⟨d, t, hs, hlook⟩ | ⟨-, hlook⟩
  · rw [more, bind_of_ok hlook] at h
    dsimp only at h
    by_cases hd : d = c
    · rw [if_pos hd] at h
      cases h
      exact .inl ⟨rfl, t, by rw [hs, hd], by rw [hd]⟩
    rw [if_neg hd] at h
    by_cases hfirst : first = true
    · rw [if_pos hfirst] at h
      cases h
      exact .inr (.inl ⟨rfl, hfirst, hs.symm⟩)
    rw [if_neg hfirst] at h
    by_cases hcomma : d = ','
    · rw [if_pos hcomma] at h
      obtain ⟨found, hfound⟩ := look_eq (ε := ε) t
      have hadvance : advance (ε := ε) (.char d :: t) = .ok () t := rfl
      rw [bind_of_ok hadvance, bind_of_ok hfound] at h
      split at h
      · cases h
      · cases h
        exact .inr (.inr ⟨rfl, Bool.eq_false_iff.mpr hfirst, t, by rw [hs, hcomma], rfl⟩)
    · rw [if_neg hcomma] at h
      cases h
  · rw [more, bind_of_ok hlook] at h
    cases h

/-- The end of an object, or one more member and what comes after it. -/
theorem members_ok {key : Reader ε κ} {member : κ → σ → Reader ε σ} {turns : Nat} {built final : σ}
    (h : members key member turns first built s = .ok final r) :
    ∃ before, turns = before + 1 ∧
      ((more (ε := ε) '\x7d' first s = .ok false r ∧ final = built) ∨
        ∃ s₁ name s₂ s₃ built' s₄, more (ε := ε) '\x7d' first s = .ok true s₁ ∧
          key s₁ = .ok name s₂ ∧ expect (ε := ε) ':' s₂ = .ok () s₃ ∧
          member name built s₃ = .ok built' s₄ ∧
          members key member before false built' s₄ = .ok final r) := by
  cases turns with
  | zero => cases h
  | succ turns =>
    refine ⟨turns, rfl, ?_⟩
    obtain ⟨another, s₁, hmore, h⟩ := bind_ok h
    cases another with
    | false =>
      cases h
      exact .inl ⟨hmore, rfl⟩
    | true =>
      obtain ⟨name, s₂, hkey, h⟩ := bind_ok h
      obtain ⟨u, s₃, hcolon, h⟩ := bind_ok h
      obtain ⟨built', s₄, hmember, h⟩ := bind_ok h
      exact .inr ⟨s₁, name, s₂, s₃, built', s₄, hmore, hkey, hcolon, hmember, h⟩

/-- Blanks before an object are of no consequence. -/
theorem object_dropSpaces {key : Reader ε κ} {member : κ → σ → Reader ε σ} (initial : σ)
    (s : Source) : object key member initial (dropSpaces s) = object key member initial s := by
  have hexpect : expect (ε := ε) '\x7b' (dropSpaces s) = expect '\x7b' s := by
    have hlook := look_congr (ε := ε) (dropSpaces_dropSpaces s)
    cases hs : look (ε := ε) s with
    | ok found t => rw [expect, bind_of_ok (hlook.trans hs), bind_of_ok hs]
    | error e t => rw [expect, bind_of_error (hlook.trans hs), bind_of_error hs]
  cases hs : expect (ε := ε) '\x7b' s with
  | ok u t => rw [object, bind_of_ok (hexpect.trans hs), bind_of_ok hs]
  | error e t => rw [object, bind_of_error (hexpect.trans hs), bind_of_error hs]

end Brackets

/-! ## Whole texts -/

theorem readAll_ok {reader : Reader ε α} {a : α} (h : readAll reader s = .ok a) :
    ∃ r, reader s = .ok a r ∧ dropSpaces r = [] := by
  unfold readAll at h
  split at h
  · rename_i a' r hs
    split at h
    · rename_i hr
      cases h
      exact ⟨r, hs, hr⟩
    · cases h
  · cases h

end ClusterAccess.Json.Reader
