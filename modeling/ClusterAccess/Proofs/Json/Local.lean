import ClusterAccess.Proofs.Json.Skips
import ClusterAccess.Proofs.Json.Written

/-!
# What a value is read by

A reader that succeeds has passed over some part of the source, and what it reads it reads by that
part: with anything else behind it the part is read the same, whatever reasons a reader may have
there to refuse (`Local`).  Most readers find the end of what they read by themselves.  Those that
look ahead have to be given the same piece to look at, and those of numbers at least one that no
number goes on with (`Sight`).

A part is read from a bracket to a bracket, in as many turns as there are pieces of the source.
What stands behind may change their number, but enough of them there are always (`LocalIn`).
-/

namespace ClusterAccess.Json

variable {ε δ α β κ σ : Type}

/-! ## What comes after -/

/-- What a reader looks at after the part that it reads. -/
inductive Sight where
  /-- Nothing. -/
  | blind
  /-- Whether a number goes on there. -/
  | ending
  /-- The next piece. -/
  | next

/-- With what a reader can see, two sources may stand for one another. -/
def Sight.Same : Sight → Source → Source → Prop
  | .blind, _, _ => True
  | .ending, r, r' => r.head? = r'.head? ∨ Stops r'
  | .next, r, r' => r.head? = r'.head?

namespace Sight

variable {sight : Sight} {r r' : Source}

theorem same_of_head (sight : Sight) (h : r.head? = r'.head?) : sight.Same r r' := by
  cases sight with
  | blind => trivial
  | ending => exact .inl h
  | next => exact h

theorem same_append {t : Source} (ht : 1 ≤ t.length) (sight : Sight) (r r' : Source) :
    sight.Same (t ++ r) (t ++ r') := by
  cases t with
  | nil => exact absurd ht (Nat.not_succ_le_zero 0)
  | cons piece t => exact same_of_head sight rfl

theorem Same.append (h : sight.Same r r') (t : Source) : sight.Same (t ++ r) (t ++ r') := by
  cases t with
  | nil => exact h
  | cons piece t => exact same_of_head sight rfl

end Sight

/-! ## Locality -/

/-- A reader that has no reasons of its own to refuse anything. -/
def Plain (x : Reader ε α) : Prop := ∀ ⦃s e r⦄, x s = .error e r → e = .unreadable

/-- What `x` reads, in a part of at least some length, `y` reads in the same part, whatever comes
after it, as far as that is not seen. -/
structure Local (least : Nat) (sight : Sight) (x : Reader ε α) (y : Reader δ α) : Prop where
  reads : ∀ ⦃s a r⦄, x s = .ok a r → ∃ t, s = t ++ r ∧ least ≤ t.length ∧
    ∀ r', sight.Same r r' → y (t ++ r') = .ok a r'
  plain : Plain x

namespace Plain

theorem pure (a : α) : Plain (Pure.pure a : Reader ε α) := nofun

theorem unreadable : Plain (Reader.unreadable : Reader ε α) := by
  intro s e r h
  cases h
  rfl

theorem bind {x : Reader ε α} {f : α → Reader ε β} (hx : Plain x) (hf : ∀ a, Plain (f a)) :
    Plain (x >>= f) := by
  intro s e r h
  cases hs : x s with
  | ok a t =>
    rw [Reader.bind_of_ok hs] at h
    exact hf a h
  | error e' t =>
    rw [Reader.bind_of_error hs] at h
    cases h
    exact hx hs

end Plain

namespace Local

variable {least least' : Nat} {sight sight' : Sight} {x : Reader ε α} {y : Reader δ α}
  {f : α → Reader ε β} {g : α → Reader δ β}

theorem pure (a : α) : Local 0 sight (Pure.pure a : Reader ε α) (Pure.pure a : Reader δ α) where
  reads := by
    intro s a' r h
    cases h
    exact ⟨[], rfl, Nat.le_refl 0, fun _ _ => rfl⟩
  plain := .pure a

theorem unreadable (y : Reader δ α) : Local least sight (Reader.unreadable : Reader ε α) y where
  reads := nofun
  plain := .unreadable

theorem weaken (h : Local least sight x y) (hle : least' ≤ least)
    (hsame : ∀ r r', sight'.Same r r' → sight.Same r r') : Local least' sight' x y where
  reads := by
    intro s a r hs
    obtain ⟨t, ht, hlength, hy⟩ := h.reads hs
    exact ⟨t, ht, Nat.le_trans hle hlength, fun r' hr => hy r' (hsame r r' hr)⟩
  plain := h.plain

theorem zero (h : Local least sight x y) : Local 0 sight x y :=
  h.weaken (Nat.zero_le _) fun _ _ hsame => hsame

/-- Whoever sees nothing may be given more to see. -/
theorem seeing (h : Local least .blind x y) (sight : Sight) : Local least sight x y :=
  h.weaken (Nat.le_refl _) fun _ _ _ => trivial

/-- What the first reader sees is in the part of the second one, or behind both. -/
theorem bind_of (hx : Local least sight' x y) (hf : ∀ a, Local least' sight (f a) (g a))
    (hsame : ∀ t r r', least' ≤ t.length → sight.Same r r' → sight'.Same (t ++ r) (t ++ r')) :
    Local (least + least') sight (x >>= f) (y >>= g) where
  reads := by
    intro s b r h
    obtain ⟨a, s', hs, hrest⟩ := Reader.bind_ok h
    obtain ⟨t, rfl, hlength, hy⟩ := hx.reads hs
    obtain ⟨u, rfl, hlength', hg⟩ := (hf a).reads hrest
    refine ⟨t ++ u, (List.append_assoc t u r).symm, ?_, fun r' hr => ?_⟩
    · rw [List.length_append]
      exact Nat.add_le_add hlength hlength'
    · rw [List.append_assoc, Reader.bind_of_ok (hy (u ++ r') (hsame u r r' hlength' hr))]
      exact hg r' hr
  plain := .bind hx.plain fun a => (hf a).plain

theorem bind (hx : Local least sight x y) (hf : ∀ a, Local 0 sight (f a) (g a)) :
    Local least sight (x >>= f) (y >>= g) :=
  bind_of hx hf fun t _ _ _ hsame => hsame.append t

/-- Where something is read afterwards, nothing is seen of what comes behind it. -/
theorem bind_before (hx : Local least sight' x y) (hf : ∀ a, Local 1 sight (f a) (g a)) :
    Local 1 sight (x >>= f) (y >>= g) :=
  (bind_of hx hf fun _ r r' hlength _ => Sight.same_append hlength sight' r r').weaken
    (Nat.le_add_left 1 least) fun _ _ hsame => hsame

theorem map (h : Local least sight x y) (f : α → β) : Local least sight (f <$> x) (f <$> y) := by
  rw [map_eq_pure_bind, map_eq_pure_bind]
  exact h.bind fun _ => .pure _

end Local

/-- The same for a reader `y` that goes on in turns: with more turns than there are pieces in the
part it reads the part. -/
def LocalIn (x : Reader ε α) (y : Nat → Reader δ α) : Prop :=
  ∀ ⦃s a r⦄, x s = .ok a r → ∃ t, s = t ++ r ∧
    ∀ r' turns, r.head? = r'.head? → t.length < turns → y turns (t ++ r') = .ok a r'

theorem LocalIn.map {x : Reader ε α} {y : Nat → Reader δ α} (h : LocalIn x y) (f : α → β) :
    LocalIn (f <$> x) (fun turns => f <$> y turns) := by
  intro s b r hs
  obtain ⟨a, hx, rfl⟩ := Reader.map_ok hs
  obtain ⟨t, rfl, ht⟩ := h hx
  exact ⟨t, rfl, fun r' turns hr hturns => Reader.map_of_ok (ht r' turns hr hturns)⟩

namespace Reader

/-! ## Single characters -/

section Characters

variable {s r : Source} {c : Char}

theorem isSpace_of_dropSpaces {t : Source} (h : dropSpaces s = .char c :: t) :
    isSpace c = false := by
  induction s with
  | nil => cases h
  | cons piece s ih =>
    cases piece with
    | stray byte => cases h
    | char d =>
      rw [dropSpaces] at h
      split at h
      · exact ih h
      · rename_i hd
        cases h
        exact Bool.eq_false_iff.mpr hd

theorem dropSpaces_of_head (h : (dropSpaces s).head? = r.head?) : dropSpaces r = r := by
  cases r with
  | nil => rfl
  | cons piece r =>
    cases piece with
    | stray byte => rfl
    | char c =>
      obtain ⟨t, ht⟩ := List.head?_eq_some_iff.mp h
      exact dropSpaces_char (isSpace_of_dropSpaces ht)

theorem dropSpaces_blanks {blanks : List Char} (h : ∀ c ∈ blanks, isSpace c = true) (r : Source) :
    dropSpaces (blanks.map .char ++ r) = dropSpaces r := by
  induction blanks with
  | nil => rfl
  | cons c blanks ih =>
    rw [List.map_cons, List.cons_append, dropSpaces, if_pos (h c (.head _))]
    exact ih fun d hd => h d (.tail _ hd)

/-- The blanks before a piece are passed over whatever comes after it. -/
theorem dropSpaces_append (s : Source) : ∃ t, s = t ++ dropSpaces s ∧
    ∀ r, dropSpaces (t ++ r) = dropSpaces r := by
  obtain ⟨blanks, hblanks, hs⟩ := dropSpaces_eq s
  exact ⟨_, hs, dropSpaces_blanks hblanks⟩

theorem local_look : Local 0 .next (look (ε := ε)) (look (ε := δ)) where
  reads := by
    intro s found r h
    obtain ⟨t, hs, ht⟩ := dropSpaces_append s
    obtain ⟨found', hlook⟩ := look_eq (ε := ε) s
    rw [hlook] at h
    cases h
    refine ⟨t, hs, Nat.zero_le _, fun r' (hr : _ = _) => ?_⟩
    have hdrop : dropSpaces (t ++ r') = r' := (ht r').trans (dropSpaces_of_head hr)
    unfold look at hlook ⊢
    rw [hdrop]
    cases hs' : dropSpaces s with
    | nil =>
      rw [hs'] at hlook hr
      obtain rfl := List.head?_eq_none_iff.mp hr.symm
      cases hlook
      rfl
    | cons piece u =>
      rw [hs'] at hlook hr
      obtain ⟨u', rfl⟩ := List.head?_eq_some_iff.mp hr.symm
      cases piece <;> cases hlook <;> rfl
  plain := by
    intro s e r h
    obtain ⟨found, hlook⟩ := look_eq (ε := ε) s
    rw [hlook] at h
    cases h

theorem local_advance : Local 0 .next (advance (ε := ε)) (advance (ε := δ)) where
  reads := by
    intro s u r h
    cases h
    cases s with
    | nil =>
      refine ⟨[], rfl, Nat.le_refl 0, fun r' (hr : _ = _) => ?_⟩
      obtain rfl := List.head?_eq_none_iff.mp hr.symm
      rfl
    | cons piece s => exact ⟨[piece], rfl, Nat.zero_le _, fun _ _ => rfl⟩
  plain := nofun

theorem accept_ok {p : Char → Bool} {found : Option Char} (h : accept (ε := ε) p s = .ok found r) :
    (∃ c, s = .char c :: r ∧ p c = true ∧ found = some c) ∨
      (s = r ∧ found = none ∧ ∀ c t, s = .char c :: t → ¬ p c = true) := by
  cases s with
  | nil =>
    cases h
    exact .inr ⟨rfl, rfl, nofun⟩
  | cons piece s =>
    cases piece with
    | stray byte =>
      cases h
      exact .inr ⟨rfl, rfl, nofun⟩
    | char c =>
      by_cases hc : p c = true
      · rw [accept_of_pos hc] at h
        cases h
        exact .inl ⟨c, rfl, hc, rfl⟩
      · rw [accept_of_neg hc] at h
        cases h
        refine .inr ⟨rfl, rfl, fun d t hs => ?_⟩
        cases hs
        exact hc

theorem plain_accept (p : Char → Bool) : Plain (accept (ε := ε) p) := by
  intro s e r h
  cases s with
  | nil => cases h
  | cons piece s =>
    cases piece with
    | stray byte => cases h
    | char c =>
      by_cases hc : p c = true
      · rw [accept_of_pos hc] at h
        cases h
      · rw [accept_of_neg hc] at h
        cases h

/-- A character that is not the next one must not become the next one. -/
theorem local_accept_of {p : Char → Bool} {sight : Sight}
    (hp : ∀ r r', sight.Same r r' → r.head? = r'.head? ∨ ∀ c t, r' = .char c :: t → ¬ p c = true) :
    Local 0 sight (accept (ε := ε) p) (accept (ε := δ) p) where
  reads := by
    intro s found r h
    rcases accept_ok h with ⟨c, rfl, hc, rfl⟩ | ⟨rfl, rfl, hnone⟩
    · exact ⟨[.char c], rfl, Nat.zero_le _, fun _ _ => accept_of_pos hc⟩
    · refine ⟨[], rfl, Nat.le_refl 0, fun r' hr => accept_of_stops fun c t ht => ?_⟩
      rcases hp s r' hr with hhead | hnone'
      · obtain ⟨u, hu⟩ := List.head?_eq_some_iff.mp (hhead.trans (congrArg List.head? ht))
        exact hnone c u hu
      · exact hnone' c t ht
  plain := plain_accept p

theorem local_accept (p : Char → Bool) :
    Local 0 .next (accept (ε := ε) p) (accept (ε := δ) p) := local_accept_of fun _ _ => .inl

/-- A character that a number goes on with is not found where no number does. -/
theorem local_accept_ending {p : Char → Bool} (hp : ∀ c t, Stops (.char c :: t) → ¬ p c = true) :
    Local 0 .ending (accept (ε := ε) p) (accept (ε := δ) p) := by
  refine local_accept_of fun r r' hr => hr.imp_right fun hstops c t ht => ?_
  exact hp c t (ht ▸ hstops)

/-- What is there is found by whoever looks for it. -/
theorem expect_of_dropSpaces (h : dropSpaces s = .char c :: r) :
    expect (ε := ε) c s = .ok () r := by
  have hlook : look (ε := ε) s = .ok (some c) (.char c :: r) := by rw [look, h]
  rw [expect, bind_of_ok hlook, if_pos rfl]
  rfl

theorem close_of_dropSpaces (h : dropSpaces s = .char c :: r) :
    close (ε := ε) c s = .ok () r := by
  have hlook : look (ε := ε) s = .ok (some c) (.char c :: r) := by rw [look, h]
  rw [close, bind_of_ok hlook]
  simp only [if_true]
  rfl

/-- A mark is read whatever comes after it. -/
theorem local_mark {x : Reader ε Unit} {y : Reader δ Unit} (c : Char)
    (hx : ∀ s r, x s = .ok () r → dropSpaces s = .char c :: r)
    (hy : ∀ s r, dropSpaces s = .char c :: r → y s = .ok () r) (hplain : Plain x) :
    Local 1 .blind x y where
  reads := by
    intro s u r h
    obtain ⟨t, hs, ht⟩ := dropSpaces_append s
    have hdrop := hx s r h
    rw [hdrop] at hs
    refine ⟨t ++ [.char c], by rw [hs, List.append_assoc]; rfl, ?_, fun r' _ => hy _ r' ?_⟩
    · rw [List.length_append]
      exact Nat.le_add_left 1 _
    · rw [List.append_assoc, ht]
      exact dropSpaces_char (isSpace_of_dropSpaces hdrop)
  plain := hplain

theorem plain_look : Plain (look (ε := ε)) := (local_look (δ := ε)).plain

theorem plain_advance : Plain (advance (ε := ε)) := (local_advance (δ := ε)).plain

theorem local_expect (c : Char) : Local 1 .blind (expect (ε := ε) c) (expect (ε := δ) c) := by
  refine local_mark c (fun s r => expect_ok) (fun s r => expect_of_dropSpaces) ?_
  refine .bind plain_look fun found => ?_
  split
  · exact plain_advance
  · exact .unreadable

theorem local_close (c : Char) : Local 1 .blind (close (ε := ε) c) (close (ε := δ) c) := by
  refine local_mark c (fun s r => close_ok) (fun s r => close_of_dropSpaces) ?_
  refine .bind plain_look fun found => ?_
  cases found with
  | none => exact .unreadable
  | some d =>
    dsimp only
    split
    · exact plain_advance
    split
    · exact .bind plain_advance fun _ => .bind plain_look fun _ => .unreadable
    · exact .unreadable

theorem local_keyword (text : List Char) :
    Local text.length .blind (keyword (ε := ε) text) (keyword (ε := δ) text) := by
  induction text with
  | nil => exact .pure ()
  | cons c text ih =>
    refine ⟨fun s u r h => ?_, .bind (plain_accept _) fun found => ?_⟩
    · obtain ⟨found, t, haccept, h⟩ := bind_ok h
      rcases accept_ok haccept with ⟨d, rfl, hd, rfl⟩ | ⟨-, rfl, -⟩
      · obtain ⟨t, rfl, hlength, ht⟩ := ih.reads h
        refine ⟨.char d :: t, rfl, Nat.succ_le_succ hlength, fun r' hr => ?_⟩
        rw [List.cons_append, keyword, bind_of_ok (accept_of_pos hd)]
        exact ht r' hr
      · cases h
    · split
      · exact ih.plain
      · exact .unreadable

end Characters

/-! ## Strings -/

theorem stringFrom_append {state : StringState} {strayed : Bool} {done : List Char} {s r : Source}
    {text : String} (h : stringFrom (ε := ε) state strayed done s = .ok text r) :
    ∃ t, s = t ++ r ∧ 1 ≤ t.length ∧
      ∀ r', stringFrom (ε := δ) state strayed done (t ++ r') = .ok text r' := by
  fun_induction stringFrom (ε := ε) state strayed done s <;>
  first
  | -- the reading is given up
    cases h
    done
  | -- the quotation mark at the end
    cases h
    refine ⟨[_], rfl, Nat.le_refl 1, fun r' => ?_⟩
    simp_all [stringFrom]
  | -- one more piece
    rename_i ih
    obtain ⟨t, rfl, -, ht⟩ := ih h
    refine ⟨_ :: t, rfl, Nat.succ_le_succ (Nat.zero_le _), fun r' => ?_⟩
    simp_all [stringFrom, -Nat.not_lt]

theorem plain_stringFrom (state : StringState) (strayed : Bool) (done : List Char) :
    Plain (stringFrom (ε := ε) state strayed done) := by
  intro s e r h
  fun_induction stringFrom (ε := ε) state strayed done s <;> simp_all

theorem local_string : Local 1 .blind (string (ε := ε)) (string (ε := δ)) :=
  have hrest : Local 1 .blind (stringFrom (ε := ε) .plain false [])
      (stringFrom (ε := δ) .plain false []) := by
    refine ⟨fun s text r h => ?_, plain_stringFrom _ _ _⟩
    obtain ⟨t, hs, hlength, ht⟩ := stringFrom_append h
    exact ⟨t, hs, hlength, fun r' _ => ht r'⟩
  (local_expect '"').bind fun _ => hrest.zero

/-! ## Numbers -/

theorem digit?_of_spanDigits {s t : Source} {c : Char} (h : (spanDigits s).2 = .char c :: t) :
    digit? c = none := by
  induction s with
  | nil => cases h
  | cons piece s ih =>
    cases piece with
    | stray byte => cases h
    | char d =>
      rw [spanDigits] at h
      cases hd : digit? d with
      | none =>
        simp only [hd] at h
        cases h
        exact hd
      | some digit =>
        simp only [hd] at h
        exact ih h

theorem local_digits : Local 1 .ending (digits (ε := ε)) (digits (ε := δ)) where
  reads := by
    intro s ds r h
    have hspan := h
    rw [digits_eq] at hspan
    by_cases hnil : (spanDigits s).1 = []
    · rw [if_pos hnil] at hspan
      cases hspan
    rw [if_neg hnil] at hspan
    cases hspan
    refine ⟨_, digits_ok h, ?_, fun r' hr => ?_⟩
    · rw [List.length_map]
      exact List.length_pos_iff.mpr hnil
    · have hend : ∀ c t, r' = .char c :: t → digit? c = none := by
        rintro c t rfl
        rcases hr with hhead | hstops
        · obtain ⟨u, hu⟩ := List.head?_eq_some_iff.mp hhead
          exact digit?_of_spanDigits hu
        · exact hstops.1
      rw [digits_eq, spanDigits_map _ hend, if_neg hnil]
  plain := by
    intro s e r h
    rw [digits_eq] at h
    split at h <;> cases h
    rfl

theorem local_wholeDigits : Local 1 .ending (wholeDigits (ε := ε)) (wholeDigits (ε := δ)) := by
  refine local_digits.bind fun ds => ?_
  split
  · split
    · exact .unreadable _
    · exact .pure _
  · exact .pure _

theorem local_fraction : Local 0 .ending (fraction (ε := ε)) (fraction (ε := δ)) := by
  have hpoint : ∀ c t, Stops (.char c :: t) → ¬ decide (c = '.') = true :=
    fun c t hstops hc => hstops.2.1 (of_decide_eq_true hc)
  refine (local_accept_ending hpoint).bind fun point => ?_
  split
  · exact local_digits.zero
  · exact .pure _

theorem local_exponent : Local 0 .ending (exponent (ε := ε)) (exponent (ε := δ)) := by
  have hmark : ∀ c t, Stops (.char c :: t) → ¬ (decide (c = 'e') || decide (c = 'E')) = true := by
    intro c t hstops hc
    rcases (Bool.or_eq_true _ _).mp hc with hc | hc
    · exact hstops.2.2.1 (of_decide_eq_true hc)
    · exact hstops.2.2.2 (of_decide_eq_true hc)
  refine (local_accept_ending hmark).bind fun mark => ?_
  split
  · exact ((local_accept _).bind_before fun sign =>
      local_digits.bind fun power => .pure _).zero
  · exact .pure _

theorem local_literal : Local 1 .ending (literal (ε := ε)) (literal (ε := δ)) := by
  rw [literal_eq, literal_eq]
  exact (local_accept _).bind_before fun minus =>
    local_wholeDigits.bind fun whole =>
    local_fraction.bind fun fraction =>
    local_exponent.bind fun exponent => .pure _

theorem local_number : Local 1 .ending (number (ε := ε)) (number (ε := δ)) := by
  refine local_literal.bind fun l => ?_
  generalize l.number? = found
  cases found with
  | some n => exact .pure n
  | none =>
    refine ⟨fun s n r h => ?_, fun s e r h => ?_⟩
    · cases h
    · cases h
      rfl

/-! ## Arrays and objects -/

section Brackets

theorem local_more (c : Char) (first : Bool) :
    Local 0 .next (more (ε := ε) c first) (more (ε := δ) c first) := by
  refine local_look.bind fun found => ?_
  cases found with
  | none => exact .unreadable _
  | some d =>
    dsimp only
    split
    · exact .pure _
    split
    · exact .pure _
    split
    · refine local_advance.bind fun _ => local_look.bind fun next => ?_
      split
      · exact .unreadable _
      · exact .pure _
    · exact .unreadable _

theorem plain_closedBy (c : Char) {content : Reader ε α} (h : Plain content) :
    Plain (closedBy c content) := by
  intro s e r hs
  unfold closedBy at hs
  split at hs
  · split at hs
    · cases hs
    · rename_i hclose
      cases hs
      exact (local_close (δ := ε) c).plain hclose
  · rename_i hcontent
    split at hs <;> cases hs <;> exact h hcontent

/-- What is read from a bracket to a bracket, in as many turns as there are pieces. -/
theorem local_between {x : Nat → Reader ε α} {y : Nat → Reader δ α} (opening closing : Char)
    (h : ∀ turns, LocalIn (x turns) y) (hplain : ∀ turns, Plain (x turns)) :
    Local 1 .blind (do expect opening; let source ← get; closedBy closing (x source.length))
      (do expect opening; let source ← get; closedBy closing (y source.length)) where
  reads := by
    intro s a r hs
    obtain ⟨_, s₁, hopen, hs₁⟩ := bind_ok hs
    rw [get_bind] at hs₁
    obtain ⟨s₂, hcontent, hclose⟩ := closedBy_ok hs₁
    obtain ⟨t₁, rfl, hlength, hy₁⟩ := (local_expect (δ := δ) opening).reads hopen
    obtain ⟨t₂, rfl, hy₂⟩ := h _ hcontent
    obtain ⟨t₃, rfl, hlength₃, hy₃⟩ := (local_close (δ := δ) closing).reads hclose
    refine ⟨t₁ ++ (t₂ ++ t₃), by simp only [List.append_assoc], ?_, fun r' _ => ?_⟩
    · rw [List.length_append]
      exact Nat.le_add_right_of_le hlength
    -- the closing bracket is one more piece
    have hturns : t₂.length < (t₂ ++ (t₃ ++ r')).length := by
      rw [List.length_append, List.length_append]
      omega
    have hhead : (t₃ ++ r).head? = (t₃ ++ r').head? := Sight.same_append hlength₃ .next r r'
    rw [List.append_assoc, List.append_assoc, bind_of_ok (hy₁ _ trivial), get_bind]
    simp only [closedBy, hy₂ _ _ hhead hturns, hy₃ r' trivial]
  plain := .bind (local_expect (δ := δ) opening).plain fun _ _ _ _ hs =>
    plain_closedBy closing (hplain _) hs

/-- One turn: either it is the last one, or something is read in it. -/
theorem LocalIn.turn {c : Char} {first : Bool} {item : Reader ε β} {item' : Reader δ β}
    {x : β → Reader ε α} {y : β → Nat → Reader δ α} {a : α} {z : Nat → Reader δ α}
    (hz : ∀ turns, z (turns + 1) = do
      if ← more c first then do let b ← item'; y b turns else return a)
    (hitem : Local 1 .ending item item') (h : ∀ b, LocalIn (x b) (y b)) :
    LocalIn (do if ← more c first then do let b ← item; x b else return a) z := by
  intro s a' r hs
  obtain ⟨another, s₁, hmore, hs₁⟩ := bind_ok hs
  obtain ⟨t₁, rfl, -, hy₁⟩ := (local_more (δ := δ) c first).reads hmore
  cases another with
  | false =>
    cases hs₁
    refine ⟨t₁, rfl, fun r' turns hr hturns => ?_⟩
    obtain ⟨turns, rfl⟩ := Nat.exists_eq_add_one_of_ne_zero (Nat.ne_zero_of_lt hturns)
    rw [hz, bind_of_ok (hy₁ r' hr)]
    rfl
  | true =>
    obtain ⟨b, s₂, hread, hrest⟩ := bind_ok hs₁
    obtain ⟨t₂, rfl, hlength, hy₂⟩ := hitem.reads hread
    obtain ⟨t₃, rfl, hy₃⟩ := h b hrest
    refine ⟨t₁ ++ (t₂ ++ t₃), by simp only [List.append_assoc], fun r' turns hr hturns => ?_⟩
    simp only [List.length_append] at hturns
    obtain ⟨turns, rfl⟩ := Nat.exists_eq_add_one_of_ne_zero (Nat.ne_zero_of_lt hturns)
    have hsame : Sight.ending.Same (t₃ ++ r) (t₃ ++ r') := (Sight.same_of_head .ending hr).append t₃
    rw [List.append_assoc, List.append_assoc, hz,
      bind_of_ok (hy₁ _ (Sight.same_append hlength .next _ _))]
    simp only [if_true, bind_of_ok (hy₂ _ hsame)]
    exact hy₃ r' turns hr (by omega)

section Arrays

variable {item : Reader ε α} {item' : Reader δ α} (h : Local 1 .ending item item')

include h

theorem localIn_items (turns : Nat) (first : Bool) :
    LocalIn (items item turns first) (fun turns => items item' turns first) := by
  induction turns generalizing first with
  | zero => exact nofun
  | succ turns ih =>
    refine LocalIn.turn (fun turns => ?_) h fun head => (ih false).map (head :: ·)
    simp only [items, map_eq_pure_bind]

theorem plain_items (turns : Nat) (first : Bool) : Plain (items item turns first) := by
  induction turns generalizing first with
  | zero => exact .unreadable
  | succ turns ih =>
    refine .bind (local_more (δ := δ) ']' first).plain fun another => ?_
    split
    · exact .bind h.plain fun _ => .bind (ih false) fun _ => .pure _
    · exact .pure _

theorem local_array : Local 1 .blind (array item) (array item') :=
  local_between '[' ']' (fun turns => localIn_items h turns true)
    fun turns => plain_items h turns true

end Arrays

section Objects

variable {key : Reader ε κ} {key' : Reader δ κ} {member : κ → σ → Reader ε σ}
  {member' : κ → σ → Reader δ σ} (hkey : Local 1 .blind key key')
  (hmember : ∀ name built, Local 1 .ending (member name built) (member' name built))

include hkey hmember

theorem localIn_members (turns : Nat) (first : Bool) (built : σ) :
    LocalIn (members key member turns first built)
      (fun turns => members key' member' turns first built) := by
  induction turns generalizing first built with
  | zero => exact nofun
  | succ turns ih =>
    have hone : Local 1 .ending (do let name ← key; expect ':'; member name built)
        (do let name ← key'; expect ':'; member' name built) :=
      hkey.bind_before fun name => (local_expect ':').bind_before fun _ => hmember name built
    have hturns (turns : Nat) : members key' member' (turns + 1) first built = do
        if ← more '\x7d' first then do
          let built ← (do let name ← key'; expect ':'; member' name built)
          members key' member' turns false built
        else return built := by
      simp only [members, bind_assoc]
    have hturn := LocalIn.turn (z := fun turns => members key' member' turns first built) hturns
      hone (ih false)
    simp only [bind_assoc] at hturn
    exact hturn

theorem plain_members (turns : Nat) (first : Bool) (built : σ) :
    Plain (members key member turns first built) := by
  induction turns generalizing first built with
  | zero => exact .unreadable
  | succ turns ih =>
    refine .bind (local_more (δ := δ) '\x7d' first).plain fun another => ?_
    split
    · exact .bind hkey.plain fun name => .bind (local_expect (δ := δ) ':').plain fun _ =>
        .bind (hmember name built).plain fun built => ih false built
    · exact .pure _

theorem local_object (initial : σ) :
    Local 1 .blind (object key member initial) (object key' member' initial) :=
  local_between '\x7b' '\x7d' (fun turns => localIn_members hkey hmember turns true initial)
    fun turns => plain_members hkey hmember turns true initial

end Objects

end Brackets

/-! ## Values -/

theorem local_scalarOr {onArray onObject : Reader ε Json} {onArray' onObject' : Reader δ Json}
    (harray : Local 1 .ending onArray onArray') (hobject : Local 1 .ending onObject onObject') :
    Local 1 .ending (scalarOr onArray onObject) (scalarOr onArray' onObject') := by
  have hword {text : List Char} (htext : 1 ≤ text.length) (value : Json) :
      Local 1 .ending (do keyword text; return value : Reader ε Json)
        (do keyword text; return value : Reader δ Json) :=
    (((local_keyword text).seeing _).bind fun _ => .pure value).weaken htext
      fun _ _ hsame => hsame
  refine local_look.bind_before fun found => ?_
  cases found with
  | none => exact .unreadable _
  | some c =>
    dsimp only
    split
    · exact (local_string.seeing _).map _
    split
    · exact harray
    split
    · exact hobject
    split
    · exact hword (by decide) _
    split
    · exact hword (by decide) _
    split
    · exact hword (by decide) _
    · exact local_number.map _

theorem local_valueBy (put : String → Json → List (String × Json) → List (String × Json))
    (nesting : Nat) :
    Local 1 .ending (valueBy (ε := ε) put nesting) (valueBy (ε := δ) put nesting) := by
  induction nesting with
  | zero => exact local_scalarOr (.unreadable _) (.unreadable _)
  | succ nesting ih =>
    refine local_scalarOr (((local_array ih).seeing _).map _) ?_
    exact ((local_object local_string (fun name built => ih.bind fun value => .pure _)
      []).seeing _).map _

/-- **A value is read by its own text alone.** -/
theorem local_value (nesting : Nat) :
    Local 1 .ending (value (ε := ε) nesting) (value (ε := δ) nesting) :=
  local_valueBy insertMember nesting

end Reader

end ClusterAccess.Json
