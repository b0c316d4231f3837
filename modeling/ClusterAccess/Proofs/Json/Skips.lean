import ClusterAccess.Proofs.Json.Brackets

/-!
# What is read and what is passed over

Wherever a value is read, it is passed over as well, and both ways end at the same point: passing
over asks for less.  In general one reader follows another if it succeeds wherever that one does,
ends where it ends, and its result is related to the other's (`Follows`).

Passing over has brackets enough for every source that is not longer than their number, so sources
are bounded in length throughout.
-/

namespace ClusterAccess.Json

variable {ε δ α α' β β' : Type}

/-- On sources of at most some length, `y` succeeds wherever `x` does and ends where it ends, with
a result related to that of `x`. -/
def Follows (m : Nat) (R : α → β → Prop) (x : Reader ε α) (y : Reader δ β) : Prop :=
  ∀ ⦃s a r⦄, s.length ≤ m → x s = .ok a r →
    ∃ b, y s = .ok b r ∧ R a b ∧ r.length ≤ s.length

/-- The relation of results that are of no interest. -/
def Ignored (_ : α) (_ : β) : Prop := True

namespace Follows

variable {m : Nat} {R : α → β → Prop} {S : α' → β' → Prop} {x : Reader ε α} {y : Reader δ β}

theorem pure {a : α} {b : β} (h : R a b) :
    Follows m R (Pure.pure a : Reader ε α) (Pure.pure b : Reader δ β) := by
  intro s a' r _ hs
  cases hs
  exact ⟨b, rfl, h, Nat.le_refl _⟩

theorem unreadable (y : Reader δ β) : Follows m R (Reader.unreadable : Reader ε α) y := by
  intro s a r _ hs
  cases hs

theorem bind {f : α → Reader ε α'} {g : β → Reader δ β'} (h : Follows m R x y)
    (hnext : ∀ a b, R a b → Follows m S (f a) (g b)) : Follows m S (x >>= f) (y >>= g) := by
  intro s a' r hlength hs
  obtain ⟨a, t, hx, hf⟩ := Reader.bind_ok hs
  obtain ⟨b, hy, hab, hle⟩ := h hlength hx
  obtain ⟨b', hg, hresult, hle'⟩ := hnext a b hab (Nat.le_trans hle hlength) hf
  exact ⟨b', by rw [Reader.bind_of_ok hy, hg], hresult, Nat.le_trans hle' hle⟩

theorem weaken {m' : Nat} (h : Follows m' R x y) (hle : m ≤ m') : Follows m R x y :=
  fun _ _ _ hlength hs => h (Nat.le_trans hlength hle) hs

theorem ignored (h : Follows m R x y) : Follows m Ignored x y := by
  intro s a r hlength hs
  obtain ⟨b, hy, -, hle⟩ := h hlength hs
  exact ⟨b, hy, trivial, hle⟩

theorem map_ignored (f : α → α') (h : Follows m R x y) : Follows m Ignored (f <$> x) y := by
  intro s a' r hlength hs
  obtain ⟨a, hx, -⟩ := Reader.map_ok hs
  obtain ⟨b, hy, -, hle⟩ := h hlength hx
  exact ⟨b, hy, trivial, hle⟩

theorem discard (h : Follows m R x y) : Follows m Ignored x (do let _ ← y) := by
  intro s a r hlength hs
  obtain ⟨b, hy, -, hle⟩ := h hlength hs
  exact ⟨(), by rw [Reader.bind_of_ok hy]; rfl, trivial, hle⟩

end Follows

namespace Reader

/-! ## Readers that follow themselves

What a reader without reasons of its own comes to does not depend on what reasons there are. -/

section Same

variable {m : Nat}

theorem follows_look : Follows m Eq (look (ε := ε)) (look (ε := δ)) := by
  intro s found r _ hs
  have hle := (passes_dropSpaces 0 s).length_le
  rcases look_cases (ε := ε) s with ⟨c, t, hdrop, hlook⟩ | ⟨hdrop, hlook⟩
  · rw [hlook] at hs
    cases hs
    refine ⟨some c, ?_, rfl, hdrop ▸ hle⟩
    rw [look, hdrop]
  · rw [hlook] at hs
    cases hs
    refine ⟨none, ?_, rfl, hle⟩
    unfold look
    split
    · rename_i c t hchar
      exact absurd hchar (hdrop c t)
    · rfl

theorem follows_advance : Follows m Eq (advance (ε := ε)) (advance (ε := δ)) := by
  intro s a r _ hs
  cases hs
  refine ⟨(), rfl, rfl, ?_⟩
  rw [List.length_tail]
  exact Nat.sub_le _ _

theorem follows_expect (c : Char) : Follows m Eq (expect (ε := ε) c) (expect (ε := δ) c) := by
  refine .bind follows_look ?_
  rintro found _ rfl
  split
  · exact follows_advance
  · exact .unreadable _

theorem follows_accept (p : Char → Bool) :
    Follows m Eq (accept (ε := ε) p) (accept (ε := δ) p) := by
  intro s found r _ hs
  cases s with
  | nil =>
    cases hs
    exact ⟨none, rfl, rfl, Nat.le_refl _⟩
  | cons piece s =>
    cases piece with
    | stray byte =>
      cases hs
      exact ⟨none, rfl, rfl, Nat.le_refl _⟩
    | char c =>
      by_cases hc : p c = true
      · rw [accept_of_pos hc] at hs
        cases hs
        exact ⟨some c, accept_of_pos hc, rfl, Nat.le_succ _⟩
      · rw [accept_of_neg hc] at hs
        cases hs
        exact ⟨none, accept_of_neg hc, rfl, Nat.le_refl _⟩

theorem follows_keyword (text : List Char) :
    Follows m Eq (keyword (ε := ε) text) (keyword (ε := δ) text) := by
  induction text with
  | nil => exact .pure rfl
  | cons c text ih =>
    refine .bind (follows_accept _) ?_
    rintro found _ rfl
    split
    · exact ih
    · exact .unreadable _

theorem digits_eq (s : Source) : digits (ε := ε) s =
    if (spanDigits s).1 = [] then .error .unreadable (spanDigits s).2
    else .ok (spanDigits s).1 (spanDigits s).2 := by
  unfold digits
  cases spanDigits s with
  | mk ds r => cases ds <;> rfl

theorem follows_digits : Follows m Eq (digits (ε := ε)) (digits (ε := δ)) := by
  intro s ds r _ hs
  have hle := ((moves_digits (Nat.le_refl 0)).passes hs).length_le
  rw [digits_eq] at hs
  by_cases hspan : (spanDigits s).1 = []
  · rw [if_pos hspan] at hs
    cases hs
  · rw [if_neg hspan] at hs
    cases hs
    exact ⟨_, by rw [digits_eq, if_neg hspan], rfl, hle⟩

theorem follows_wholeDigits : Follows m Eq (wholeDigits (ε := ε)) (wholeDigits (ε := δ)) := by
  refine .bind follows_digits ?_
  rintro ds _ rfl
  split
  · split
    · exact .unreadable _
    · exact .pure rfl
  · exact .pure rfl

theorem follows_fraction : Follows m Eq (fraction (ε := ε)) (fraction (ε := δ)) := by
  refine .bind (follows_accept _) ?_
  rintro point _ rfl
  split
  · exact follows_digits
  · exact .pure rfl

theorem follows_exponent : Follows m Eq (exponent (ε := ε)) (exponent (ε := δ)) := by
  refine .bind (follows_accept _) ?_
  rintro mark _ rfl
  split
  · refine .bind (follows_accept _) ?_
    rintro sign _ rfl
    refine .bind follows_digits ?_
    rintro power _ rfl
    exact .pure rfl
  · exact .pure rfl

theorem follows_literal : Follows m Eq (literal (ε := ε)) (literal (ε := δ)) := by
  rw [literal_eq, literal_eq]
  refine .bind (follows_accept _) ?_
  rintro minus _ rfl
  refine .bind follows_wholeDigits ?_
  rintro whole _ rfl
  refine .bind follows_fraction ?_
  rintro fraction _ rfl
  refine .bind follows_exponent ?_
  rintro exponent _ rfl
  exact .pure rfl

theorem stringFrom_same {state : StringState} {strayed : Bool} {done : List Char} {s r : Source}
    {text : String} (h : stringFrom (ε := ε) state strayed done s = .ok text r) :
    stringFrom (ε := δ) state strayed done s = .ok text r := by
  fun_induction stringFrom (ε := ε) state strayed done s <;> simp_all [stringFrom, -Nat.not_lt]

theorem length_le_of_stringFrom {s r : Source} {text : String}
    (h : stringFrom (ε := ε) .plain false [] s = .ok text r) : r.length ≤ s.length := by
  have hlands := lands_stringFrom (ε := ε) .plain false [] s
  rw [h] at hlands
  exact Passes.length_le hlands

theorem follows_string : Follows m Eq (string (ε := ε)) (string (ε := δ)) :=
  .bind (follows_expect '"') fun _ _ _ _ text _ _ hs =>
    ⟨text, stringFrom_same hs, rfl, length_le_of_stringFrom hs⟩

end Same

/-! ## Strings -/

/-- How far the skipping of a string has come where the reading of it has come so far. -/
def StringState.skipped : StringState → SkipState
  | .plain | .half _ => .plain
  | .escape | .halfEscape _ => .escape
  | .numeric _ digits _ => .numeric (3 - digits)

theorem skipStringFrom_of_stringFrom {state : StringState} {strayed : Bool} {done : List Char}
    {s r : Source} {text : String} (h : stringFrom (ε := ε) state strayed done s = .ok text r) :
    skipStringFrom (ε := δ) state.skipped s = .ok () r := by
  have hunicode : escaped? 'u' = none := rfl
  fun_induction stringFrom (ε := ε) state strayed done s <;>
    simp_all [skipStringFrom, StringState.skipped]
  case case14 digits value strayed done rest c high hc hlt ih =>
    obtain ⟨missing, hmissing⟩ : ∃ missing, 3 - digits = missing + 1 := ⟨2 - digits, by omega⟩
    have hdigits : 2 - digits = missing := by omega
    rw [hmissing]
    rwa [hdigits] at ih


theorem skipString_follows (m : Nat) :
    Follows m Ignored (string (ε := ε)) (skipString (ε := δ)) :=
  .bind (follows_expect '"') fun _ _ _ _ _ _ _ hs =>
    ⟨(), skipStringFrom_of_stringFrom hs, trivial, length_le_of_stringFrom hs⟩

/-! ## Arrays and objects -/

section Brackets

variable {m : Nat}

theorem follows_more (c : Char) (first : Bool) :
    Follows m Eq (more (ε := ε) c first) (more (ε := δ) c first) := by
  refine .bind follows_look ?_
  rintro found _ rfl
  cases found with
  | none => exact .unreadable _
  | some d =>
    dsimp only
    split
    · exact .pure rfl
    split
    · exact .pure rfl
    split
    · refine .bind follows_advance ?_
      rintro u _ rfl
      refine .bind follows_look ?_
      rintro next _ rfl
      split
      · exact .unreadable _
      · exact .pure rfl
    · exact .unreadable _

theorem follows_close (c : Char) : Follows m Eq (close (ε := ε) c) (close (ε := δ) c) := by
  refine .bind follows_look ?_
  rintro found _ rfl
  cases found with
  | none => exact .unreadable _
  | some d =>
    dsimp only
    split
    · exact follows_advance
    split
    · refine .bind follows_advance ?_
      rintro u _ rfl
      refine .bind follows_look ?_
      rintro next _ rfl
      exact .unreadable _
    · exact .unreadable _

theorem follows_closedBy (c : Char) {R : α → β → Prop} {x : Reader ε α} {y : Reader δ β}
    (h : Follows m R x y) : Follows m R (closedBy c x) (closedBy c y) := by
  intro s a r hlength hs
  obtain ⟨t, hx, hclose⟩ := closedBy_ok hs
  obtain ⟨b, hy, hab, hle⟩ := h hlength hx
  obtain ⟨_, hclose', -, hle'⟩ := follows_close (δ := δ) c (Nat.le_trans hle hlength) hclose
  refine ⟨b, ?_, hab, Nat.le_trans hle' hle⟩
  simp only [closedBy, hy, hclose']

/-- An opening bracket that has been passed over leaves a shorter source. -/
theorem follows_opened (c : Char) {R : α → β → Prop} {x : Reader ε α} {y : Reader δ β}
    (h : Follows m R x y) :
    Follows (m + 1) R (do expect c; x) (do expect c; y) := by
  intro s a r hlength hs
  obtain ⟨u, t, hexpect, hx⟩ := bind_ok hs
  have hshorter : t.length < s.length := by
    have hle := (passes_dropSpaces 0 s).length_le
    rcases look_cases (ε := ε) s with ⟨d, t', hdrop, hlook⟩ | ⟨-, hlook⟩
    · rw [hdrop] at hle
      rw [expect, bind_of_ok hlook] at hexpect
      split at hexpect
      · cases hexpect
        exact hle
      · cases hexpect
    · rw [expect, bind_of_ok hlook] at hexpect
      cases hexpect
  obtain ⟨_, hexpect', -, -⟩ := follows_expect (δ := δ) c hlength hexpect
  obtain ⟨b, hy, hab, hle⟩ := h (Nat.le_of_lt_succ (Nat.lt_of_lt_of_le hshorter hlength)) hx
  exact ⟨b, by rw [bind_of_ok hexpect', hy], hab, Nat.le_trans hle (Nat.le_of_lt hshorter)⟩

theorem follows_get {R : α → β → Prop} {f : Source → Reader ε α} {g : Source → Reader δ β}
    (h : ∀ s, Follows m R (f s) (g s)) : Follows m R (get >>= f) (get >>= g) :=
  fun s _ _ hlength hs => h s hlength hs

theorem follows_items {item : Reader ε α} {item' : Reader δ β} (h : Follows m Ignored item item')
    (turns : Nat) (first : Bool) :
    Follows m Ignored (items item turns first) (items item' turns first) := by
  induction turns generalizing first with
  | zero => exact .unreadable _
  | succ turns ih =>
    refine .bind (follows_more ']' first) ?_
    rintro another _ rfl
    split
    · exact .bind h fun _ _ _ => .bind (ih false) fun _ _ _ => .pure trivial
    · exact .pure trivial

theorem follows_array {item : Reader ε α} {item' : Reader δ β}
    (h : Follows m Ignored item item') : Follows (m + 1) Ignored (array item) (array item') :=
  follows_opened '[' <| follows_get fun s => follows_closedBy ']' (follows_items h s.length true)

section Objects

variable {κ κ' σ σ' : Type} {key : Reader ε κ} {key' : Reader δ κ'}
  {member : κ → σ → Reader ε σ} {member' : κ' → σ' → Reader δ σ'} {K : κ → κ' → Prop}
  {B : σ → σ' → Prop}

theorem follows_members (hkey : Follows m K key key')
    (hmember : ∀ name name' built built', K name name' → B built built' →
      Follows m B (member name built) (member' name' built'))
    (turns : Nat) (first : Bool) {built : σ} {built' : σ'} (hbuilt : B built built') :
    Follows m B (members key member turns first built)
      (members key' member' turns first built') := by
  induction turns generalizing first built built' with
  | zero => exact .unreadable _
  | succ turns ih =>
    refine .bind (follows_more '\x7d' first) ?_
    rintro another _ rfl
    split
    · refine .bind hkey fun name name' hname => .bind (follows_expect ':') fun _ _ _ => ?_
      exact .bind (hmember name name' built built' hname hbuilt) fun _ _ h => ih false h
    · exact .pure hbuilt

theorem follows_object (hkey : Follows m K key key')
    (hmember : ∀ name name' built built', K name name' → B built built' →
      Follows m B (member name built) (member' name' built'))
    (initial : σ) (initial' : σ') (hinitial : B initial initial') :
    Follows (m + 1) B (object key member initial) (object key' member' initial') :=
  follows_opened '\x7b' <| follows_get fun s =>
    follows_closedBy '\x7d' (follows_members hkey hmember s.length true hinitial)

end Objects

end Brackets

/-! ## Values -/

theorem literal_follows (m : Nat) : Follows m Ignored (number (ε := ε)) (literal (ε := δ)) := by
  intro s n r hlength hs
  obtain ⟨l, t, hl, hs⟩ := bind_ok hs
  obtain ⟨l', hl', -, hle⟩ := follows_literal (δ := δ) hlength hl
  cases hn : l.number? with
  | some n =>
    rw [hn] at hs
    cases hs
    exact ⟨l', hl', trivial, hle⟩
  | none =>
    rw [hn] at hs
    cases hs

theorem skipWithin_follows_scalarOr {m k : Nat} {onArray onObject : Reader ε Json}
    (harray : Follows m Ignored onArray (do let _ ← array (skipWithin (ε := δ) k)))
    (hobject : Follows m Ignored onObject
      (object skipString (fun () () => skipWithin (ε := δ) k) ())) :
    Follows m Ignored (scalarOr onArray onObject) (skipWithin (ε := δ) (k + 1)) := by
  refine .bind follows_look ?_
  rintro found _ rfl
  cases found with
  | none => exact .unreadable _
  | some c =>
    have hword (text : List Char) (value : Json) : Follows m Ignored
        (do keyword text; return value : Reader ε Json) (keyword (ε := δ) text) := by
      have hvalue := (follows_keyword (ε := ε) (δ := δ) (m := m) text).map_ignored fun _ => value
      rwa [map_eq_pure_bind] at hvalue
    dsimp only
    split
    · exact (skipString_follows m).map_ignored _
    split
    · exact harray
    split
    · exact hobject
    split
    · exact hword _ _
    split
    · exact hword _ _
    split
    · exact hword _ _
    · exact ((literal_follows m).map_ignored _).discard

theorem skipWithin_follows (put : String → Json → List (String × Json) → List (String × Json))
    (nesting m : Nat) :
    Follows m Ignored (valueBy (ε := ε) put nesting) (skipWithin (ε := δ) (m + 1)) := by
  induction nesting generalizing m with
  | zero => exact skipWithin_follows_scalarOr (.unreadable _) (.unreadable _)
  | succ nesting ih =>
    cases m with
    | zero =>
      intro s a r hlength hs
      obtain rfl : s = [] := List.eq_nil_of_length_eq_zero (Nat.le_zero.mp hlength)
      cases hs
    | succ m =>
      refine skipWithin_follows_scalarOr ((follows_array (ih m)).map_ignored _).discard ?_
      have hmember (name : String) (before : List (String × Json)) : Follows m Ignored
          (do return put name (← valueBy put nesting) before : Reader ε _)
          (skipWithin (ε := δ) (m + 1)) := by
        have hput := (ih m).map_ignored fun value => put name value before
        rwa [map_eq_pure_bind] at hput
      have hobject := follows_object (skipString_follows (ε := ε) (δ := δ) m)
        (fun name (_ : Unit) before (_ : Unit) _ _ => hmember name before)
        [] () trivial
      exact hobject.map_ignored _

/-- **A value that can be read can be passed over.** -/
theorem skip_follows (put : String → Json → List (String × Json) → List (String × Json))
    (nesting m : Nat) : Follows m Ignored (valueBy (ε := ε) put nesting) (skip (ε := δ)) :=
  fun s _ _ _ hs => skipWithin_follows put nesting s.length (Nat.le_refl _) hs

theorem skipStringFrom_same {state : SkipState} {s r : Source}
    (h : skipStringFrom (ε := ε) state s = .ok () r) :
    skipStringFrom (ε := δ) state s = .ok () r := by
  fun_induction skipStringFrom (ε := ε) state s <;> simp_all [skipStringFrom]

theorem follows_skipString (m : Nat) :
    Follows m Ignored (skipString (ε := ε)) (skipString (ε := δ)) := by
  refine .bind (follows_expect '"') fun _ _ _ s u r _ hs => ?_
  have hlands := lands_skipStringFrom (ε := ε) .plain s
  rw [hs] at hlands
  exact ⟨(), skipStringFrom_same hs, trivial, Passes.length_le hlands⟩

theorem follows_skipWithin (nesting m : Nat) :
    Follows m Ignored (skipWithin (ε := ε) nesting) (skipWithin (ε := δ) nesting) := by
  induction nesting generalizing m with
  | zero => exact .unreadable _
  | succ nesting ih =>
    refine .bind follows_look ?_
    rintro found _ rfl
    cases found with
    | none => exact .unreadable _
    | some c =>
      dsimp only
      split
      · exact follows_skipString m
      split
      · exact .bind ((follows_array (ih m)).weaken (Nat.le_succ m)) fun _ _ _ => .pure trivial
      split
      · exact (follows_object (follows_skipString m) (fun _ _ _ _ _ _ => ih m) () ()
          trivial).weaken (Nat.le_succ m)
      split
      · exact (follows_keyword _).ignored
      split
      · exact (follows_keyword _).ignored
      split
      · exact (follows_keyword _).ignored
      · exact .bind follows_literal.ignored fun _ _ _ => .pure trivial

theorem follows_skip (m : Nat) : Follows m Ignored (skip (ε := ε)) (skip (ε := δ)) :=
  follows_get fun _ => follows_skipWithin _ m

end Reader

end ClusterAccess.Json
