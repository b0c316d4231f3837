import ClusterAccess.Proofs.Json.Moves

/-!
# How readers move under brackets

An array or object that is read as a whole leaves one where it began.  One whose content fails is
still looked through for its closing bracket, from wherever the failure has left the source; since
the failure never leaves it under fewer brackets than those around the content, closing one leaves
at least those around the whole.  So every value, whatever is made of it, is passed over as a whole
when it can be read, and left at some place when it cannot.
-/

namespace ClusterAccess.Json

variable {ε α β σ : Type}

namespace Reader

/-! ## Looking for a closing bracket

A bracket is looked for also after a failure, wherever that has left the source: outside of strings
or inside of one. -/

section Close

variable {c : Char} {s r : Source} {o : Place}

theorem step_blank (hc : isSpace c = true) (o : Place) :
    ∃ q, o.step (.char c) = some q ∧ q.opened = o.opened := by
  obtain ⟨mode, opened⟩ := o
  cases mode with
  | outside => exact ⟨_, Place.step_bare (Place.isBare_of_isSpace hc) opened, rfl⟩
  | inside =>
    obtain ⟨hquote, hslash⟩ := ne_of_isSpace hc
    exact ⟨_, congrArg some (Place.insideStep_char hquote hslash opened), rfl⟩
  | escaped => exact ⟨_, rfl, rfl⟩

theorem passes_blanks (o : Place) (s : Source) :
    ∃ q, Passes o s (dropSpaces s) q ∧ q.opened = o.opened := by
  induction s generalizing o with
  | nil => exact ⟨o, .refl _ _, rfl⟩
  | cons piece s ih =>
    cases piece with
    | stray byte => exact ⟨o, .refl _ _, rfl⟩
    | char c =>
      rw [dropSpaces]
      by_cases hc : isSpace c = true
      · rw [if_pos hc]
        obtain ⟨q, hstep, hq⟩ := step_blank hc o
        obtain ⟨q', hpasses, hq'⟩ := ih q
        exact ⟨q', (Passes.one hstep s).trans hpasses, hq'.trans hq⟩
      · rw [if_neg hc]
        exact ⟨o, .refl _ _, rfl⟩

/-- A closing bracket or a comma leads somewhere if some bracket is open. -/
theorem step_mark (ho : 1 ≤ o.opened) (hc : c = ']' ∨ c = '\x7d' ∨ c = ',') :
    ∃ q, o.step (.char c) = some q := by
  obtain ⟨mode, opened⟩ := o
  cases mode with
  | outside =>
    cases opened with
    | zero => exact absurd ho (by decide)
    | succ opened => rcases hc with rfl | rfl | rfl <;> exact ⟨_, rfl⟩
  | inside => exact ⟨_, rfl⟩
  | escaped => exact ⟨_, rfl⟩

/-- Where the source is left, be it after success or after failure. -/
def left : EStateM.Result (Failure ε) Source α → Source
  | .ok _ r => r
  | .error _ r => r

theorem passes_close (hc : c = ']' ∨ c = '\x7d') (ho : 1 ≤ o.opened) (s : Source) :
    ∃ q, Passes o s (left (close (ε := ε) c s)) q := by
  obtain ⟨q, hpasses, hq⟩ := passes_blanks o s
  rw [← hq] at ho
  rcases look_cases (ε := ε) s with ⟨d, t, hs, hlook⟩ | ⟨-, hlook⟩
  · rw [hs] at hpasses
    rw [close, bind_of_ok hlook]
    by_cases hd : d = c
    · simp only [if_pos hd]
      obtain ⟨q', hstep⟩ := step_mark ho (c := d) (by rw [hd]; exact hc.imp_right .inl)
      exact ⟨q', hpasses.trans (.one hstep t)⟩
    · simp only [if_neg hd]
      split
      · rename_i hcomma
        obtain ⟨q', hstep⟩ := step_mark ho (c := d) (.inr (.inr hcomma.1))
        obtain ⟨q'', hblanks, -⟩ := passes_blanks q' t
        obtain ⟨found, hfound⟩ := look_eq (ε := ε) t
        have hadvance : advance (ε := ε) (.char d :: t) = .ok () t := rfl
        rw [bind_of_ok hadvance, bind_of_ok hfound]
        exact ⟨q'', (hpasses.trans (.one hstep t)).trans hblanks⟩
      · exact ⟨q, hpasses⟩
  · rw [close, bind_of_ok hlook]
    exact ⟨q, hpasses⟩

theorem moves_close (hc : c = ']' ∨ c = '\x7d') :
    Moves 0 (close (ε := ε) c) (outside 1) (outside 0) := by
  intro s
  obtain ⟨q, hq⟩ := passes_close (ε := ε) hc (o := outside 1) (Nat.le_refl 1) s
  cases hs : close (ε := ε) c s with
  | ok u r =>
    have hpasses := passes_dropSpaces 1 s
    have hstep : (outside 1).step (.char c) = some (outside 0) := by
      rcases hc with rfl | rfl <;> rfl
    rw [close_ok hs] at hpasses
    exact hpasses.trans (.one hstep r)
  | error e r =>
    rw [hs] at hq
    exact .given_up hq (Nat.zero_le _) e

theorem look_of_strays (h : Strays r) : look (ε := ε) r = .ok none r := by
  obtain ⟨byte, t, rfl⟩ := h
  rfl

theorem close_of_strays (h : Strays r) : close (ε := ε) c r = .error .unreadable r := by
  rw [close, bind_of_ok (look_of_strays h)]
  rfl

theorem moves_closedBy (hc : c = ']' ∨ c = '\x7d') {content : Reader ε α}
    (hcontent : Moves 1 content (outside 1) (outside 1)) :
    Moves 0 (closedBy c content) (outside 1) (outside 0) := by
  intro s
  have hlands := hcontent s
  cases hs : content s with
  | ok a t =>
    rw [hs] at hlands
    have hclose := moves_close (ε := ε) hc t
    cases ht : close (ε := ε) c t with
    | ok u r =>
      rw [ht] at hclose
      simp only [closedBy, hs, ht]
      exact hlands.trans hclose
    | error e r =>
      rw [ht] at hclose
      simp only [closedBy, hs, ht]
      exact .after hlands hclose
  | error e t =>
    rw [hs] at hlands
    rcases hlands with ⟨o, hpasses, ho⟩ | hstrays
    · obtain ⟨q, hq⟩ := passes_close (ε := ε) hc ho t
      cases ht : close (ε := ε) c t with
      | ok u r =>
        rw [ht] at hq
        simp only [closedBy, hs, ht]
        exact .given_up (hpasses.trans hq) (Nat.zero_le _) e
      | error e' r =>
        rw [ht] at hq
        simp only [closedBy, hs, ht]
        exact .given_up (hpasses.trans hq) (Nat.zero_le _) e
    · simp only [closedBy, hs, close_of_strays hstrays]
      exact .inr hstrays

end Close

/-! ## Arrays and objects -/

theorem moves_more {c : Char} (first : Bool) :
    Moves 1 (more (ε := ε) c first) (outside 1) (outside 1) := by
  intro s
  have hpasses := passes_dropSpaces 1 s
  rcases look_cases (ε := ε) s with ⟨d, t, hs, hlook⟩ | ⟨-, hlook⟩
  · rw [hs] at hpasses
    rw [more, bind_of_ok hlook]
    dsimp only
    by_cases hd : d = c
    · rw [if_pos hd]
      exact hpasses
    rw [if_neg hd]
    by_cases hfirst : first = true
    · rw [if_pos hfirst]
      exact hpasses
    rw [if_neg hfirst]
    by_cases hcomma : d = ','
    · rw [if_pos hcomma]
      rw [hcomma] at hpasses ⊢
      have hrest : Moves 1 (do
          if (← look) = some c then unreadable else return true : Reader ε Bool) (outside 1)
          (outside 1) := by
        refine .bind moves_look fun found => ?_
        split
        · exact .unreadable (Nat.le_refl 1) _
        · exact .pure 1 true _
      exact .after (hpasses.trans (.one rfl t)) (hrest t)
    · rw [if_neg hcomma]
      exact .given_up hpasses (Nat.le_refl 1) _
  · rw [more, bind_of_ok hlook]
    exact .given_up hpasses (Nat.le_refl 1) _

theorem moves_items {item : Reader ε α} (hitem : Moves 1 item (outside 1) (outside 1)) (turns : Nat)
    (first : Bool) : Moves 1 (items item turns first) (outside 1) (outside 1) := by
  induction turns generalizing first with
  | zero => exact .unreadable (Nat.le_refl 1) _
  | succ turns ih =>
    refine .bind (moves_more first) fun another => ?_
    split
    · exact .bind hitem fun head => .bind (ih false) fun rest => .pure 1 _ _
    · exact .pure 1 _ _

theorem moves_array {item : Reader ε α} (hitem : Moves 0 item (outside 0) (outside 0)) :
    Moves 0 (array item) (outside 0) (outside 0) :=
  .bind (moves_expect rfl (Nat.le_refl 0)) fun _ => .get fun _ =>
    moves_closedBy (.inl rfl) (moves_items (hitem.under 1) _ true)

section Objects

variable {κ : Type} {key : Reader ε κ} {member : κ → σ → Reader ε σ}

theorem moves_members (hkey : Moves 1 key (outside 1) (outside 1))
    (hmember : ∀ name built, Moves 1 (member name built) (outside 1) (outside 1)) (turns : Nat)
    (first : Bool) (built : σ) :
    Moves 1 (members key member turns first built) (outside 1) (outside 1) := by
  induction turns generalizing first built with
  | zero => exact .unreadable (Nat.le_refl 1) _
  | succ turns ih =>
    refine .bind (moves_more first) fun another => ?_
    split
    · exact .bind hkey fun name => .bind (moves_expect rfl (Nat.le_refl 1)) fun _ =>
        .bind (hmember name built) fun built => ih false built
    · exact .pure 1 _ _

theorem moves_object (hkey : Moves 0 key (outside 0) (outside 0))
    (hmember : ∀ name built, Moves 0 (member name built) (outside 0) (outside 0)) (initial : σ) :
    Moves 0 (object key member initial) (outside 0) (outside 0) :=
  .bind (moves_expect rfl (Nat.le_refl 0)) fun _ => .get fun _ =>
    moves_closedBy (.inr rfl)
      (moves_members (hkey.under 1) (fun name built => (hmember name built).under 1) _ true initial)

end Objects

/-! ## Values -/

theorem moves_scalarOr {onArray onObject : Reader ε Json}
    (harray : Moves 0 onArray (outside 0) (outside 0))
    (hobject : Moves 0 onObject (outside 0) (outside 0)) :
    Moves 0 (scalarOr onArray onObject) (outside 0) (outside 0) := by
  refine .bind moves_look fun found => ?_
  cases found with
  | none => exact .unreadable (Nat.le_refl 0) _
  | some c =>
    dsimp only
    split
    · exact .map moves_string
    split
    · exact harray
    split
    · exact hobject
    split
    · exact .bind (moves_keyword (Nat.le_refl 0) rfl) fun _ => .pure 0 _ _
    split
    · exact .bind (moves_keyword (Nat.le_refl 0) rfl) fun _ => .pure 0 _ _
    split
    · exact .bind (moves_keyword (Nat.le_refl 0) rfl) fun _ => .pure 0 _ _
    · exact .map moves_number

theorem moves_valueBy (put : String → Json → List (String × Json) → List (String × Json))
    (nesting : Nat) : Moves 0 (valueBy (ε := ε) put nesting) (outside 0) (outside 0) := by
  have hnone : Moves 0 (unreadable : Reader ε Json) (outside 0) (outside 0) :=
    .unreadable (Nat.le_refl 0) _
  induction nesting with
  | zero => exact moves_scalarOr hnone hnone
  | succ nesting ih =>
    exact moves_scalarOr (.map (moves_array ih)) <| .map <|
      moves_object moves_string (fun key built => .bind ih fun value => .pure 0 _ _) []

theorem moves_skipWithin (nesting : Nat) :
    Moves 0 (skipWithin (ε := ε) nesting) (outside 0) (outside 0) := by
  induction nesting with
  | zero => exact .unreadable (Nat.le_refl 0) _
  | succ nesting ih =>
    refine .bind moves_look fun found => ?_
    cases found with
    | none => exact .unreadable (Nat.le_refl 0) _
    | some c =>
      dsimp only
      split
      · exact moves_skipString
      split
      · exact .bind (moves_array ih) fun _ => .pure 0 _ _
      split
      · exact moves_object moves_skipString (fun _ _ => ih) ()
      split
      · exact moves_keyword (Nat.le_refl 0) rfl
      split
      · exact moves_keyword (Nat.le_refl 0) rfl
      split
      · exact moves_keyword (Nat.le_refl 0) rfl
      · exact .bind (moves_literal (Nat.le_refl 0)) fun _ => .pure 0 _ _

/-- **A value that is passed over is passed over as a whole.** -/
theorem moves_skip : Moves 0 (skip (ε := ε)) (outside 0) (outside 0) :=
  .get fun _ => moves_skipWithin _

end Reader

end ClusterAccess.Json
