import ClusterAccess.Proofs.Identity.Payload
import ClusterAccess.Proofs.Json.Entries
import ClusterAccess.Proofs.Json.Literal
import Mathlib.Data.Nat.Cast.Field

/-!
# Subjects

The subject of claims is the number that is written for it, as far as doubles go.  A literal without
fraction and exponent is the subject itself, however many digits it has.  Any other literal is taken
for its double, and whether it is whole and not negative is asked of the double: a literal may
denote neither and still name a user, but not one far from it (`Claims.subject_near_literal`).
-/

namespace ClusterAccess.Claims

open Json (Field Keeps Literal Met Number Reader Source literalAt? numberAt?)

/-! ## Numbers -/

section Numbers

variable {l : Literal} {n : Number} {user : UserId}

theorem toNat_floor {x : Double} (h : x.isWord = true) :
    (UInt64.ofNat x.floor).toNat = x.floor := by
  rw [Double.isWord, Bool.and_eq_true, decide_eq_true_eq] at h
  have hlt : x.floor < 2 ^ 64 := by
    rw [Double.floor]
    exact (Nat.div_lt_iff_lt_mul Double.one_pos).mpr h.2
  exact UInt64.toNat_ofNat_of_lt' hlt

theorem floor_of_isWhole {x : Double} (h : x.isWhole = true) : (x.floor : ℚ) = x.magnitude := by
  have hdvd : Double.one ∣ x.units := Nat.dvd_of_mod_eq_zero (of_decide_eq_true h)
  rw [Double.floor, Double.magnitude, Nat.cast_div hdvd Double.cast_one_pos.ne']

/-- A double that names a user is a word, and its own whole part. -/
theorem subjectOfNumber?_double {x : Double} (h : subjectOfNumber? (.double x) = some user) :
    x.isWord = true ∧ (user.value.toNat : ℚ) = x.magnitude := by
  rw [subjectOfNumber?] at h
  split at h
  · rename_i htest
    obtain ⟨hword, hwhole⟩ := Bool.and_eq_true_iff.mp htest
    obtain rfl := Option.some.inj h
    exact ⟨hword, by rw [toNat_floor hword, floor_of_isWhole hwhole]⟩
  · cases h

/-- The user of a literal is next to it. -/
theorem abs_subject_sub_le (hnumber : l.number? = some n) (h : subjectOfNumber? n = some user) :
    |(user.value.toNat : ℚ) - l.value| ≤ l.slack := by
  cases n with
  | natural word =>
    obtain rfl := Option.some.inj h
    rw [Literal.value_of_natural hnumber, sub_self, abs_zero]
    exact l.slack_pos.le
  | negative word => cases h
  | double x =>
    obtain ⟨hword, hmagnitude⟩ := subjectOfNumber?_double h
    rw [hmagnitude]
    exact Literal.abs_sub_value_le (Literal.double?_of_number hnumber).1 hword

/-- A whole number that is not large is the user itself. -/
theorem subject_eq_of_whole {m : ℤ} (hle : |(user.value.toNat : ℚ) - l.value| ≤ l.slack)
    (hvalue : l.value = m) (hsmall : |m| < 2 ^ 50) : m = user.value.toNat := by
  have hmagnitude : l.magnitude = (|m| : ℤ) := by
    rw [← l.abs_value, hvalue, Int.cast_abs]
  have hbound : ((|m| : ℤ) : ℚ) ≤ 2 ^ 50 - 1 := by exact_mod_cast Int.le_sub_one_of_lt hsmall
  have hslack : l.slack < 1 := by
    have hunits := Literal.two_units_lt
    rw [Literal.slack, hmagnitude]
    linarith
  rw [hvalue] at hle
  have hless : |((user.value.toNat : ℤ) - m : ℤ)| < 1 := by
    have hcast : |(((user.value.toNat : ℤ) - m : ℤ) : ℚ)| < 1 := by
      rw [Int.cast_sub, Int.cast_natCast]
      exact hle.trans_lt hslack
    exact_mod_cast hcast
  exact (Int.sub_eq_zero.mp (Int.abs_lt_one_iff.mp hless)).symm

/-- No word names a user behind a minus but zero, which is zero there too. -/
theorem value_of_minus {word : ℕ} (hle : |(user.value.toNat : ℚ) - l.value| ≤ l.slack)
    (hword : l.word? = some word) (hminus : l.negative = true) : l.value = user.value.toNat := by
  obtain ⟨-, -, hmagnitude, -⟩ := Literal.magnitude_of_word hword
  have hvalue : l.value = -(word : ℚ) := by rw [Literal.value, hminus, if_pos rfl, hmagnitude]
  have hzero : word = 0 := by
    by_contra hne
    have hone : (1 : ℚ) ≤ word := by exact_mod_cast Nat.one_le_iff_ne_zero.mpr hne
    have huser : (0 : ℚ) ≤ user.value.toNat := Nat.cast_nonneg _
    have hunits := Literal.two_units_lt
    rw [hvalue, sub_neg_eq_add, Literal.slack, hmagnitude] at hle
    have habs := (le_abs_self _).trans hle
    linarith
  rw [hzero, Nat.cast_zero, neg_zero] at hvalue
  have heq := subject_eq_of_whole (m := 0) hle (by rw [hvalue, Int.cast_zero]) (by norm_num)
  rw [hvalue, ← Int.cast_natCast user.value.toNat, ← heq, Int.cast_zero]

/-- **What is written as a word is the user itself.** -/
theorem value_of_plain (hnumber : l.number? = some n) (h : subjectOfNumber? n = some user)
    (hfraction : l.fraction = []) (hexponent : l.exponent = none) :
    l.value = user.value.toNat := by
  cases n with
  | natural word =>
    obtain rfl := Option.some.inj h
    exact Literal.value_of_natural hnumber
  | negative word => cases h
  | double x =>
    obtain ⟨hdouble, hsign⟩ := Literal.double?_of_number hnumber
    cases hword : l.word? with
    | some word =>
      -- a word is read as a double only behind a minus
      have hminus : l.negative = true := hsign.resolve_left (by rw [hword]; nofun)
      exact value_of_minus (abs_subject_sub_le hnumber h) hword hminus
    | none =>
      have hlarge := Literal.le_units_of_long hword hfraction hexponent hdouble
      have hsmall := (subjectOfNumber?_double h).1
      rw [Double.isWord, Bool.and_eq_true, decide_eq_true_eq] at hsmall
      exact absurd hsmall.2 (Nat.not_lt_of_le hlarge)

end Numbers

/-! ## Where the subject is -/

/-- The user that is named at the front of a source. -/
def subjectAt? (text : Source) : Option UserId := (numberAt? text).bind subjectOfNumber?

theorem subjectAt?_dropSpaces (text : Source) :
    subjectAt? (Reader.dropSpaces text) = subjectAt? text := by
  rw [subjectAt?, numberAt?, literalAt?, Reader.dropSpaces_dropSpaces, ← literalAt?, ← numberAt?,
    ← subjectAt?]

theorem subjectAt?_of_subject {nesting : Nat} {s r : Source} {user : UserId}
    (h : subject nesting s = .ok user r) : subjectAt? s = some user := by
  obtain ⟨value, t, hvalue, h⟩ := Reader.bind_ok h
  cases value with
  | number n =>
    rw [subjectAt?, Reader.numberAt?_of_value hvalue, Option.bind_some]
    cases hn : subjectOfNumber? n with
    | some id =>
      rw [subjectOf, hn] at h
      cases h
      rfl
    | none =>
      rw [subjectOf, hn] at h
      cases h
  | _ => cases h

/-- The first field of the claims. -/
def userField (nesting : Nat) : Field SubjectError Draft :=
  ⟨"user_id", (·.user.isSome), fun d => do return { d with user := some (← subject nesting) }⟩

/-- The other fields have other names, and leave the subject as it is. -/
theorem user_of_mem_tail {nesting : Nat} :
    ∀ other ∈ (Draft.fields nesting).tail, other.name ≠ (userField nesting).name ∧
      ∀ ⦃d s d' r⦄, other.read d s = .ok d' r → d'.user = d.user := by
  intro other hother
  simp only [Draft.fields, List.tail_cons, List.mem_cons, List.not_mem_nil, or_false] at hother
  rcases hother with rfl | rfl
  · refine ⟨(by decide : "username" ≠ "user_id"), fun d s d' r hread => ?_⟩
    obtain ⟨value, t, -, hread⟩ := Reader.bind_ok hread
    cases hread
    rfl
  · refine ⟨(by decide : "auth_type" ≠ "user_id"), fun d s d' r hread => ?_⟩
    obtain ⟨value, t, -, hread⟩ := Reader.bind_ok hread
    cases hread
    rfl

theorem keeps_user (nesting : Nat) :
    Keeps (Draft.fields nesting) (userField nesting) fun d found =>
      d.user = found.bind subjectAt? := by
  refine Keeps.of_cons (marks_fields nesting) (fun d s d' r hread => ?_) user_of_mem_tail
  obtain ⟨user, t, huser, hread⟩ := Reader.bind_ok hread
  cases hread
  exact (subjectAt?_of_subject huser).symm

/-- The source that the subject of claims begins: that of the first value of an array, or of the
only member of an object that has the name. -/
def subjectText? (payload : Source) : Option Source :=
  match Reader.dropSpaces payload with
  | .char '[' :: first => some first
  | _ =>
    match Json.valuesOf? "user_id" payload with
    | some [value] => some value
    | _ => none

/-- The number literal of the subject. -/
def subjectLiteral? (payload : Source) : Option Literal := (subjectText? payload).bind literalAt?

/-- In an array the subject is what stands first. -/
theorem subjectAt?_of_positional {nesting : Nat} {d : Draft} {s r : Source} {user : UserId}
    (h : Reader.positional (Draft.fields nesting) true {} s = .ok d r)
    (huser : d.user = some user) : subjectAt? s = some user := by
  obtain ⟨another, t, hmore, h⟩ := Reader.bind_ok h
  rcases Reader.more_ok hmore with ⟨rfl, -⟩ | ⟨rfl, -, rfl⟩ | ⟨-, hlater, -⟩
  · -- an empty array has no subject
    cases h
    cases huser
  · obtain ⟨first, u, hread, h⟩ := Reader.bind_ok h
    have hfirst : first.user = subjectAt? s :=
      ((keeps_user _).reads hread).trans (subjectAt?_dropSpaces s)
    have hkept : d.user = subjectAt? s :=
      Reader.positional_keeps (P := fun d => d.user = subjectAt? s)
        (fun other hother d s d' r hread hd => ((user_of_mem_tail other hother).2 hread).trans hd)
        h hfirst
    exact hkept.symm.trans huser
  · cases hlater

/-- In an object it is what the member with its name is. -/
theorem entries_of_object {nesting : Nat} {d : Draft} {s r : Source}
    (h : Reader.object Reader.string (Reader.namedField (Draft.fields nesting)) {} s = .ok d r) :
    ∃ entries, Reader.entries (ε := Empty) s = .ok entries r ∧
      Met (userField nesting) (fun d found => d.user = found.bind subjectAt?) d entries := by
  obtain ⟨entries, hentries, hmet, -⟩ := Reader.passWith_follows (δ := Empty)
    (keeps_user nesting).preserves (fun field hfield d m => skip_follows_fields _ m field hfield d)
    (.nothing rfl rfl) s.length (Nat.le_succ _) h
  exact ⟨entries, hentries, hmet⟩

/-- **The subject of claims** is the user that is named where it is. -/
theorem subjectAt?_of_readAll {payload : Source} {claims : Claims}
    (h : readAll payload = .ok claims) :
    ∃ text, subjectText? payload = some text ∧ subjectAt? text = some claims.user := by
  obtain ⟨draft, r, hrecord, hblank, huser⟩ := record_of_readAll h
  rcases Reader.record_ok hrecord with ⟨first, u, hdrop, harray⟩ | ⟨members, hdrop, hobject⟩
  · refine ⟨first, ?_, subjectAt?_of_positional harray huser⟩
    rw [subjectText?, hdrop]
    rfl
  · obtain ⟨entries, hentries, found, hvalues, -, hfound⟩ := entries_of_object hobject
    rw [huser] at hfound
    obtain ⟨text, rfl, htext⟩ := Option.bind_eq_some_iff.mp hfound.symm
    have hlist : Json.valuesOf? "user_id" payload = some [text] := by
      rw [Json.valuesOf?, Json.entries?_of_ok hentries hblank]
      exact congrArg some hvalues
    refine ⟨text, ?_, htext⟩
    rw [subjectText?, hdrop, hlist]
    rfl

/-! ## The subject and its literal -/

/-- What a literal says of the user that is read from it. -/
structure Spells (l : Literal) (user : UserId) : Prop where
  /-- The number is next to the user. -/
  near : |(user.value.toNat : ℚ) - l.value| ≤ l.slack
  /-- Without fraction and exponent it is the user. -/
  plain : l.fraction = [] → l.exponent = none → l.value = user.value.toNat
  /-- If it is whole, and not large, it is the user. -/
  whole : ∀ m : ℤ, l.value = m → |m| < 2 ^ 50 → m = user.value.toNat

theorem spells_of_readAll {payload : Source} {claims : Claims} (h : readAll payload = .ok claims) :
    ∃ l, subjectLiteral? payload = some l ∧ Spells l claims.user := by
  obtain ⟨text, htext, hsubject⟩ := subjectAt?_of_readAll h
  obtain ⟨n, hnumberAt, hsubject⟩ := Option.bind_eq_some_iff.mp hsubject
  obtain ⟨l, hl, hnumber⟩ := Option.bind_eq_some_iff.mp hnumberAt
  have hnear := abs_subject_sub_le hnumber hsubject
  refine ⟨l, by rw [subjectLiteral?, htext, Option.bind_some, hl], hnear, ?_, ?_⟩
  · exact value_of_plain hnumber hsubject
  · exact fun m => subject_eq_of_whole hnear

/-- **The subject is next to the number that is written for it**, and is that number where nothing
has to be rounded.  So payloads that have one subject spell numbers that are next to each other. -/
theorem subject_near_literal {payload payload' : Source} {claims claims' : Claims}
    (h : readAll payload = .ok claims) (h' : readAll payload' = .ok claims') :
    ∃ l l', subjectLiteral? payload = some l ∧ subjectLiteral? payload' = some l' ∧
      Spells l claims.user ∧ Spells l' claims'.user ∧
      (claims.user = claims'.user → |l.value - l'.value| ≤ l.slack + l'.slack) := by
  obtain ⟨l, hl, hspells⟩ := spells_of_readAll h
  obtain ⟨l', hl', hspells'⟩ := spells_of_readAll h'
  refine ⟨l, l', hl, hl', hspells, hspells', fun hsame => ?_⟩
  have hnear' := hspells'.near
  rw [← hsame] at hnear'
  calc |l.value - l'.value| ≤ |l.value - claims.user.value.toNat| +
        |claims.user.value.toNat - l'.value| := abs_sub_le _ _ _
    _ ≤ l.slack + l'.slack := add_le_add (by rw [abs_sub_comm]; exact hspells.near) hnear'

/-- A payload whose subject is written a little above one, where there is no double. -/
def aboveOne : Source := Text.pieces "\x7b\"user_id\":1.00000000000000000001\x7d"

theorem readAll_aboveOne : readAll aboveOne = .ok { user := ⟨1⟩ } :=
  Json.eq_ok_of_toOption (by decide +kernel)

/-- The user of `aboveOne` is also that of an array with a plain one. -/
theorem subject_near_literal_aboveOne :
    readAll aboveOne = .ok { user := ⟨1⟩ } ∧
      readAll (Text.pieces "[1]") = .ok { user := ⟨1⟩ } ∧
      ∃ l l', subjectLiteral? aboveOne = some l ∧ subjectLiteral? (Text.pieces "[1]") = some l' ∧
        Spells l ⟨1⟩ ∧ Spells l' ⟨1⟩ ∧ |l.value - l'.value| ≤ l.slack + l'.slack := by
  have hplain : readAll (Text.pieces "[1]") = .ok { user := ⟨1⟩ } :=
    Json.eq_ok_of_toOption rfl
  obtain ⟨l, l', hl, hl', hspells, hspells', hnear⟩ :=
    subject_near_literal readAll_aboveOne hplain
  exact ⟨readAll_aboveOne, hplain, l, l', hl, hl', hspells, hspells', hnear rfl⟩

/-- The subject is not always the number that is written for it. -/
theorem exists_subject_ne_literal :
    ¬ ∀ payload claims, readAll payload = .ok claims →
      ∃ l, subjectLiteral? payload = some l ∧ l.value = claims.user.value.toNat := by
  intro h
  obtain ⟨l, hl, hvalue⟩ := h aboveOne _ readAll_aboveOne
  have hliteral : subjectLiteral? aboveOne =
      some ⟨false, [1], List.replicate 19 0 ++ [1], none⟩ := by decide +kernel
  rw [hliteral] at hl
  obtain rfl := Option.some.inj hl
  have hdigits : Literal.ofDigits ([1] ++ (List.replicate 19 0 ++ [1])) = 10 ^ 20 + 1 := rfl
  rw [Literal.value, if_neg Bool.false_ne_true, Literal.magnitude, hdigits] at hvalue
  norm_num [Literal.power, UInt64.toNat_one] at hvalue

end ClusterAccess.Claims
