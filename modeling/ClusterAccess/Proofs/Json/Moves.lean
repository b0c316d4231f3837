import ClusterAccess.Proofs.Json.Place
import ClusterAccess.Proofs.Json.Reader

/-!
# How readers move

A reader that succeeds leaves the source at a place that is known beforehand: after a value one is
where the value began, outside of strings and under as many brackets.  A reader that gives up leaves
the source anywhere, but never under fewer brackets than those around the value; or else it leaves
it in the middle of a character, before a byte that nobody can read (`Moves`).
-/

namespace ClusterAccess.Json

open Text (Piece)

variable {ε α β σ : Type}

/-! ## Where a reader lands -/

/-- What is left begins with a byte that belongs to no character. -/
def Strays (r : Source) : Prop := ∃ byte t, r = .stray byte :: t

/-- Where a source is left by a reader that started at a place: at `q` if it succeeds, under at
least `n` brackets if it gives up. -/
def Lands (n : Nat) (p : Place) (s : Source) (result : EStateM.Result (Failure ε) Source α)
    (q : Place) : Prop :=
  match result with
  | .ok _ r => Passes p s r q
  | .error _ r => (∃ o, Passes p s r o ∧ n ≤ o.opened) ∨ Strays r

/-- A reader that lands so, whatever it is given. -/
def Moves (n : Nat) (x : Reader ε α) (p q : Place) : Prop := ∀ s, Lands n p s (x s) q

section Lands

variable {n : Nat} {p q o : Place} {s t r : Source}
  {result : EStateM.Result (Failure ε) Source α}

theorem Lands.after (h : Passes p s t o) (hlands : Lands n o t result q) :
    Lands n p s result q := by
  cases result with
  | ok a r => exact h.trans hlands
  | error e r =>
    rcases hlands with ⟨o', hpasses, hle⟩ | hstrays
    · exact .inl ⟨o', h.trans hpasses, hle⟩
    · exact .inr hstrays

theorem Lands.given_up (h : Passes p s r o) (hle : n ≤ o.opened) (e : Failure ε) :
    Lands n p s (.error e r : EStateM.Result (Failure ε) Source α) q := .inl ⟨o, h, hle⟩

end Lands

namespace Moves

variable {n : Nat} {x : Reader ε α} {p q o : Place} {s r : Source} {a : α}

theorem passes (h : Moves n x p q) (hx : x s = .ok a r) : Passes p s r q := by
  have hlands := h s
  rwa [hx] at hlands

theorem pure (n : Nat) (a : α) (p : Place) : Moves n (Pure.pure a : Reader ε α) p p :=
  fun s => Passes.refl p s

theorem unreadable (hle : n ≤ p.opened) (q : Place) :
    Moves n (Reader.unreadable : Reader ε α) p q := fun s => .given_up (.refl p s) hle _

theorem bind {f : α → Reader ε β} (hx : Moves n x p q) (hf : ∀ a, Moves n (f a) q o) :
    Moves n (x >>= f) p o := by
  intro s
  have hlands := hx s
  cases h : x s with
  | ok a t =>
    rw [h] at hlands
    rw [Reader.bind_of_ok h]
    exact .after hlands (hf a t)
  | error e t =>
    rw [h] at hlands
    rw [Reader.bind_of_error h]
    exact hlands

theorem map {g : α → β} (hx : Moves n x p q) : Moves n (g <$> x) p q := by
  intro s
  have hlands := hx s
  cases h : x s with
  | ok a t =>
    rw [h] at hlands
    rw [Reader.map_of_ok h]
    exact hlands
  | error e t =>
    rw [h] at hlands
    rw [Reader.map_of_error h]
    exact hlands

theorem get {f : Source → Reader ε β} (hf : ∀ s, Moves n (f s) p q) :
    Moves n (MonadState.get >>= f) p q := fun s => hf s s

/-- Around a value there may be more brackets. -/
theorem under (h : Moves n x p q) (k : Nat) : Moves (n + k) x (p.under k) (q.under k) := by
  intro s
  have hlands := h s
  cases hx : x s with
  | ok a r =>
    rw [hx] at hlands
    exact hlands.under k
  | error e r =>
    rw [hx] at hlands
    rcases hlands with ⟨o, hpasses, hle⟩ | hstrays
    · exact .inl ⟨o.under k, hpasses.under k, Nat.add_le_add_right hle k⟩
    · exact .inr hstrays

end Moves

/-! ## Characters outside of strings -/

namespace Reader

section Characters

variable {n m : Nat}

theorem moves_look : Moves n (look (ε := ε)) (outside m) (outside m) := by
  intro s
  have hpasses := passes_dropSpaces m s
  rcases look_cases (ε := ε) s with ⟨c, t, hs, hlook⟩ | ⟨-, hlook⟩
  · rw [hlook, ← hs]
    exact hpasses
  · rw [hlook]
    exact hpasses

theorem moves_expect {c : Char} {q : Place} (hstep : (outside m).step (.char c) = some q)
    (hle : n ≤ m) : Moves n (expect (ε := ε) c) (outside m) q := by
  intro s
  have hpasses := passes_dropSpaces m s
  rcases look_cases (ε := ε) s with ⟨d, t, hs, hlook⟩ | ⟨-, hlook⟩
  · rw [expect, bind_of_ok hlook]
    rw [hs] at hpasses
    by_cases hd : d = c
    · subst hd
      simp only [if_true]
      exact hpasses.trans (.one hstep t)
    · rw [if_neg fun h => hd (Option.some.inj h)]
      exact .given_up hpasses hle _
  · rw [expect, bind_of_ok hlook]
    exact .given_up hpasses hle _

theorem moves_accept {p : Char → Bool} (hp : ∀ c, p c = true → isBare c = true) :
    Moves n (accept (ε := ε) p) (outside m) (outside m) := by
  intro s
  cases s with
  | nil => exact Passes.refl _ _
  | cons piece t =>
    cases piece with
    | stray byte => exact Passes.refl _ _
    | char c =>
      by_cases hc : p c = true
      · rw [accept_of_pos hc]
        exact Passes.one (Place.step_bare (hp c hc) m) t
      · rw [accept_of_neg hc]
        exact Passes.refl _ _

theorem moves_keyword (hle : n ≤ m) {text : List Char} (h : text.all isBare = true) :
    Moves n (keyword (ε := ε) text) (outside m) (outside m) := by
  induction text with
  | nil => exact .pure n () _
  | cons c text ih =>
    obtain ⟨hc, htext⟩ := Bool.and_eq_true_iff.mp h
    refine .bind (moves_accept fun d hd => ?_) fun found => ?_
    · rwa [of_decide_eq_true hd]
    · by_cases hfound : found.isSome = true
      · rw [if_pos hfound]
        exact ih htext
      · rw [if_neg hfound]
        exact .unreadable hle _

end Characters

/-! ## Numbers -/

theorem digitChar_eq : ∀ d : Digit, Nat.digitChar d.val = Char.ofNat ('0'.toNat + d.val) := by
  decide

theorem isBare_digitChar : ∀ d : Digit, isBare (Nat.digitChar d.val) = true := by decide

theorem digitPiece_of_digit? {c : Char} {d : Digit} (h : digit? c = some d) :
    digitPiece d = .char c := by
  unfold digit? at h
  split at h
  · rename_i hrange
    cases h
    rw [digitPiece, digitChar_eq, Nat.add_sub_cancel' hrange.1, Char.ofNat_toNat]
  · cases h

theorem spanDigits_eq (s : Source) : s = (spanDigits s).1.map digitPiece ++ (spanDigits s).2 := by
  induction s with
  | nil => rfl
  | cons piece s ih =>
    cases piece with
    | stray byte => rfl
    | char c =>
      rw [spanDigits]
      cases hc : digit? c with
      | none => rfl
      | some d => exact List.cons_eq_cons.mpr ⟨(digitPiece_of_digit? hc).symm, ih⟩

theorem digits_ok {s r : Source} {ds : List Digit} (h : digits (ε := ε) s = .ok ds r) :
    s = ds.map digitPiece ++ r := by
  have hspan := spanDigits_eq s
  unfold digits at h
  split at h
  · cases h
  · rename_i hs
    cases h
    rwa [hs] at hspan

theorem passes_digits (ds : List Digit) (m : Nat) (s : Source) :
    Passes (outside m) (ds.map digitPiece ++ s) s (outside m) := by
  induction ds with
  | nil => exact .refl _ _
  | cons d ds ih => exact (Passes.one (Place.step_bare (isBare_digitChar d) m) _).trans ih

/-- The fraction of a literal, which may be left out. -/
def fraction : Reader ε (List Digit) := do
  if (← accept (· = '.')).isSome then digits else return []

/-- The exponent of a literal, which may be left out. -/
def exponent : Reader ε (Option (Bool × List Digit)) := do
  if (← accept fun c => c = 'e' || c = 'E').isSome then
    let sign ← accept fun c => c = '+' || c = '-'
    let power ← digits
    return some (decide (sign = some '-'), power)
  else return none

theorem literal_eq : literal (ε := ε) = (do
    let minus ← accept (· = '-')
    let whole ← wholeDigits
    let fraction ← fraction
    let exponent ← exponent
    return { negative := minus.isSome, whole, fraction, exponent }) := by
  have hexponent {β : Type} (next : Option (Bool × List Digit) → Reader ε β) :
      (do
        if (← accept fun c => c = 'e' || c = 'E').isSome then
          let sign ← accept fun c => c = '+' || c = '-'
          let power ← digits
          next (some (decide (sign = some '-'), power))
        else next none) = (exponent >>= next) := by
    rw [exponent, bind_assoc]
    refine bind_congr fun mark => ?_
    by_cases hmark : mark.isSome = true
    · rw [if_pos hmark, if_pos hmark, bind_assoc]
      refine bind_congr fun sign => ?_
      rw [bind_assoc]
      rfl
    · rw [if_neg hmark, if_neg hmark]
      rfl
  unfold literal
  refine bind_congr fun minus => bind_congr fun whole => ?_
  rw [fraction, bind_assoc]
  refine bind_congr fun point => ?_
  have hlast (fraction : List Digit) := hexponent fun exponent =>
    (pure { negative := minus.isSome, whole, fraction, exponent } : Reader ε Literal)
  by_cases hpoint : point.isSome = true
  · rw [if_pos hpoint, if_pos hpoint]
    exact bind_congr hlast
  · rw [if_neg hpoint, if_neg hpoint]
    exact hlast []

section Numbers

variable {n m : Nat}

theorem moves_digits (hle : n ≤ m) : Moves n (digits (ε := ε)) (outside m) (outside m) := by
  intro s
  have hpasses := passes_digits (spanDigits s).1 m (spanDigits s).2
  rw [← spanDigits_eq s] at hpasses
  unfold digits
  split
  · rename_i hs
    rw [hs] at hpasses
    exact .given_up hpasses hle _
  · rename_i hs
    rw [hs] at hpasses
    exact hpasses

theorem moves_wholeDigits (hle : n ≤ m) :
    Moves n (wholeDigits (ε := ε)) (outside m) (outside m) := by
  refine .bind (moves_digits hle) fun ds => ?_
  split
  · split
    · exact .unreadable hle _
    · exact .pure n _ _
  · exact .pure n _ _

theorem isBare_of_sign {c : Char} (h : (decide (c = '+') || decide (c = '-')) = true) :
    isBare c = true := by
  rcases (Bool.or_eq_true _ _).mp h with h | h <;>
  · rw [of_decide_eq_true h]
    rfl

theorem isBare_of_exponent {c : Char} (h : (decide (c = 'e') || decide (c = 'E')) = true) :
    isBare c = true := by
  rcases (Bool.or_eq_true _ _).mp h with h | h <;>
  · rw [of_decide_eq_true h]
    rfl

theorem isBare_of_eq {d : Char} (hd : isBare d = true) {c : Char} (h : decide (c = d) = true) :
    isBare c = true := by
  rwa [of_decide_eq_true h]

theorem moves_fraction (hle : n ≤ m) : Moves n (fraction (ε := ε)) (outside m) (outside m) := by
  refine .bind (moves_accept fun c => isBare_of_eq rfl) fun point => ?_
  split
  · exact moves_digits hle
  · exact .pure n _ _

theorem moves_exponent (hle : n ≤ m) : Moves n (exponent (ε := ε)) (outside m) (outside m) := by
  refine .bind (moves_accept fun c => isBare_of_exponent) fun mark => ?_
  split
  · exact .bind (moves_accept fun c => isBare_of_sign) fun _ =>
      .bind (moves_digits hle) fun _ => .pure n _ _
  · exact .pure n _ _

theorem moves_literal (hle : n ≤ m) : Moves n (literal (ε := ε)) (outside m) (outside m) := by
  rw [literal_eq]
  exact .bind (moves_accept fun c => isBare_of_eq rfl) fun _ =>
    .bind (moves_wholeDigits hle) fun _ => .bind (moves_fraction hle) fun _ =>
    .bind (moves_exponent hle) fun _ => .pure n _ _

end Numbers

end Reader

theorem Literal.takeBelow_suffix (limit taken : Nat) (ds : List Digit) :
    (takeBelow limit taken ds).2 <:+ ds := by
  induction ds generalizing taken with
  | nil => exact List.suffix_refl _
  | cons d ds ih =>
    rw [takeBelow]
    split
    · exact (ih _).trans (List.suffix_cons d ds)
    · exact List.suffix_refl _

namespace Reader

/-- A literal that is too large is given up among the digits of its exponent, or after it. -/
theorem passes_unread {s r : Source} {l : Literal} (h : literal (ε := ε) s = .ok l r) :
    Passes (outside 0) s (l.unread.map digitPiece ++ r) (outside 0) := by
  rw [literal_eq] at h
  obtain ⟨minus, s₁, hminus, h⟩ := bind_ok h
  obtain ⟨whole, s₂, hwhole, h⟩ := bind_ok h
  obtain ⟨fraction, s₃, hfraction, h⟩ := bind_ok h
  obtain ⟨exponent, s₄, hexponent, h⟩ := bind_ok h
  cases h
  have hfront : Passes (outside 0) s s₃ (outside 0) :=
    ((moves_accept (n := 0) fun c => isBare_of_eq rfl).passes hminus).trans <|
    ((moves_wholeDigits (Nat.zero_le 0)).passes hwhole).trans <|
    (moves_fraction (Nat.zero_le 0)).passes hfraction
  refine hfront.trans ?_
  obtain ⟨mark, s₄, hmark, hexponent⟩ := bind_ok hexponent
  have hs₃ := (moves_accept (n := 0) (m := 0) fun c => isBare_of_exponent).passes hmark
  refine hs₃.trans ?_
  by_cases hsome : mark.isSome = true
  · rw [if_pos hsome] at hexponent
    obtain ⟨sign, s₅, hsign, hexponent⟩ := bind_ok hexponent
    obtain ⟨power, s₆, hpower, hexponent⟩ := bind_ok hexponent
    cases hexponent
    -- the digits that have not been looked at are the last ones of the exponent
    obtain ⟨before, hsplit⟩ :=
      (List.tail_suffix _).trans (Literal.takeBelow_suffix (2 ^ 31) 0 power)
    have hs : s₅ = before.map digitPiece ++
        ((Literal.takeBelow (2 ^ 31) 0 power).2.tail.map digitPiece ++ r) := by
      rw [digits_ok hpower, ← List.append_assoc, ← List.map_append, hsplit]
    have hs₅ := (moves_accept (n := 0) (m := 0) fun c => isBare_of_sign).passes hsign
    rw [hs] at hs₅
    exact hs₅.trans (passes_digits before 0 _)
  · rw [if_neg hsome] at hexponent
    cases hexponent
    exact .refl _ _

theorem moves_number : Moves 0 (number (ε := ε)) (outside 0) (outside 0) := by
  intro s
  cases hl : literal (ε := ε) s with
  | error e r =>
    have hlands := moves_literal (ε := ε) (Nat.zero_le 0) s
    rw [hl] at hlands
    rw [number, bind_of_error hl]
    exact hlands
  | ok l r =>
    rw [number, bind_of_ok hl]
    cases hn : l.number? with
    | some n => exact (moves_literal (Nat.zero_le 0)).passes hl
    | none => exact .given_up (passes_unread hl) (Nat.zero_le _) _

/-! ## Strings -/

/-- Whether a string that is being read has just come past a backslash. -/
def StringState.mode : StringState → Mode
  | .escape | .halfEscape _ => .escaped
  | _ => .inside

def SkipState.mode : SkipState → Mode
  | .escape => .escaped
  | _ => .inside

/-- No digit in base sixteen ends a string or begins an escape. -/
theorem ne_of_hexValue? {c : Char} {h : Nat} (hc : hexValue? c = some h) : c ≠ '"' ∧ c ≠ '\\' := by
  constructor <;>
  · rintro rfl
    cases hc

/-- Inside of a string every piece leads somewhere. -/
theorem passes_one (mode : Mode) (hmode : mode ≠ .outside) (piece : Piece) (r : Source) :
    ∃ o, Passes ⟨mode, 0⟩ (piece :: r) r o := by
  cases mode with
  | outside => exact absurd rfl hmode
  | inside => exact ⟨_, .one rfl r⟩
  | escaped => exact ⟨_, .one rfl r⟩

theorem lands_given_up (mode : Mode) (hmode : mode ≠ .outside) (piece : Piece) (r : Source)
    (e : Failure ε) (q : Place) :
    Lands 0 ⟨mode, 0⟩ (piece :: r) (.error e r : EStateM.Result (Failure ε) Source α) q := by
  obtain ⟨o, ho⟩ := passes_one mode hmode piece r
  exact .given_up ho (Nat.zero_le _) e

/-- A reader that gives up after the first byte of a character leaves the others. -/
theorem lands_dropByte (mode : Mode) (hmode : mode ≠ .outside) (piece : Piece) (r : Source)
    (e : Failure ε) (q : Place) :
    Lands 0 ⟨mode, 0⟩ (piece :: r)
      (.error e (dropByte piece r) : EStateM.Result (Failure ε) Source α) q := by
  cases piece with
  | stray byte => exact lands_given_up mode hmode _ r e q
  | char c =>
    rw [dropByte]
    cases (String.utf8EncodeChar c).tail with
    | nil => exact lands_given_up mode hmode _ r e q
    | cons byte bytes => exact .inr ⟨byte, _, rfl⟩

theorem step_inside {c : Char} (hquote : c ≠ '"') (hslash : c ≠ '\\') :
    (inside 0).step (.char c) = some (inside 0) :=
  congrArg some (Place.insideStep_char hquote hslash 0)

theorem lands_stringFrom (state : StringState) (strayed : Bool) (done : List Char) (s : Source) :
    Lands 0 ⟨state.mode, 0⟩ s (stringFrom (ε := ε) state strayed done s) (outside 0) := by
  induction s generalizing state strayed done with
  | nil => cases state <;> exact .given_up (.refl _ _) (Nat.zero_le _) _
  | cons piece s ih =>
    cases state with
    | plain =>
      cases piece with
      | stray byte => exact .after (.one rfl s) (ih .plain true done)
      | char c =>
        rw [stringFrom]
        by_cases hquote : c = '"'
        · rw [if_pos hquote, hquote]
          split
          · exact lands_given_up .inside nofun _ s _ _
          · exact Passes.one rfl s
        by_cases hslash : c = '\\'
        · rw [if_neg hquote, if_pos hslash, hslash]
          exact .after (.one rfl s) (ih .escape strayed done)
        rw [if_neg hquote, if_neg hslash]
        split
        · exact lands_given_up .inside nofun _ s _ _
        · exact .after (.one (step_inside hquote hslash) s) (ih .plain strayed _)
    | escape =>
      cases piece with
      | stray byte => exact lands_given_up .escaped nofun _ s _ _
      | char c =>
        rw [stringFrom]
        cases escaped? c with
        | some d => exact .after (.one rfl s) (ih .plain strayed _)
        | none =>
          by_cases hc : c = 'u'
          · rw [if_pos hc]
            exact .after (.one rfl s) (ih (.numeric none 0 0) strayed done)
          · rw [if_neg hc]
            exact lands_given_up .escaped nofun _ s _ _
    | numeric high digits value =>
      cases piece with
      | stray byte => exact lands_given_up .inside nofun _ s _ _
      | char c =>
        cases hc : hexValue? c with
        | none =>
          simp only [stringFrom, hc]
          exact lands_given_up .inside nofun _ s _ _
        | some h =>
          have hgoes (state : StringState) (done : List Char) (hmode : state.mode = .inside) :
              Lands 0 (inside 0) (.char c :: s) (stringFrom (ε := ε) state strayed done s)
                (outside 0) := by
            obtain ⟨hquote, hslash⟩ := ne_of_hexValue? hc
            have hstate := ih state strayed done
            rw [hmode] at hstate
            exact .after (.one (step_inside hquote hslash) s) hstate
          simp only [stringFrom, hc]
          split
          · exact hgoes (.numeric high (digits + 1) _) done rfl
          · cases high with
            | none =>
              dsimp only
              split
              · exact lands_given_up .inside nofun _ s _ _
              · split
                · exact hgoes (.half _) done rfl
                · exact hgoes .plain _ rfl
            | some high =>
              dsimp only
              split
              · exact hgoes .plain _ rfl
              · exact lands_given_up .inside nofun _ s _ _
    | half high =>
      rw [stringFrom]
      by_cases hpiece : piece = .char '\\'
      · rw [if_pos hpiece, hpiece]
        exact .after (.one rfl s) (ih (.halfEscape high) strayed done)
      · rw [if_neg hpiece]
        exact lands_dropByte .inside nofun _ s _ _
    | halfEscape high =>
      rw [stringFrom]
      by_cases hpiece : piece = .char 'u'
      · rw [if_pos hpiece]
        exact .after (.one rfl s) (ih (.numeric (some high) 0 0) strayed done)
      · rw [if_neg hpiece]
        exact lands_dropByte .escaped nofun _ s _ _

theorem moves_string : Moves 0 (string (ε := ε)) (outside 0) (outside 0) :=
  .bind (moves_expect rfl (Nat.le_refl 0)) fun _ s => lands_stringFrom .plain false [] s

theorem lands_skipStringFrom (state : SkipState) (s : Source) :
    Lands 0 ⟨state.mode, 0⟩ s (skipStringFrom (ε := ε) state s) (outside 0) := by
  induction s generalizing state with
  | nil => cases state <;> exact .given_up (.refl _ _) (Nat.zero_le _) _
  | cons piece s ih =>
    cases state with
    | plain =>
      cases piece with
      | stray byte => exact .after (.one rfl s) (ih .plain)
      | char c =>
        rw [skipStringFrom]
        by_cases hquote : c = '"'
        · rw [if_pos hquote, hquote]
          exact Passes.one rfl s
        by_cases hslash : c = '\\'
        · rw [if_neg hquote, if_pos hslash, hslash]
          exact .after (.one rfl s) (ih .escape)
        rw [if_neg hquote, if_neg hslash]
        split
        · exact lands_given_up .inside nofun _ s _ _
        · exact .after (.one (step_inside hquote hslash) s) (ih .plain)
    | escape =>
      cases piece with
      | stray byte => exact lands_given_up .escaped nofun _ s _ _
      | char c =>
        rw [skipStringFrom]
        split
        · exact .after (.one rfl s) (ih .plain)
        · split
          · exact .after (.one rfl s) (ih (.numeric 3))
          · exact lands_given_up .escaped nofun _ s _ _
    | numeric missing =>
      cases piece with
      | stray byte => exact lands_given_up .inside nofun _ s _ _
      | char c =>
        cases hc : hexValue? c with
        | none =>
          simp only [skipStringFrom, hc, Option.isNone_none, if_true]
          exact lands_given_up .inside nofun _ s _ _
        | some h =>
          obtain ⟨hquote, hslash⟩ := ne_of_hexValue? hc
          have hstep := Passes.one (step_inside hquote hslash) s
          simp only [skipStringFrom, hc, Option.isNone_some, Bool.false_eq_true, if_false]
          cases missing with
          | zero => exact .after hstep (ih .plain)
          | succ missing => exact .after hstep (ih (.numeric missing))

theorem moves_skipString : Moves 0 (skipString (ε := ε)) (outside 0) (outside 0) :=
  .bind (moves_expect rfl (Nat.le_refl 0)) fun _ s => lands_skipStringFrom .plain s

end Reader

end ClusterAccess.Json
