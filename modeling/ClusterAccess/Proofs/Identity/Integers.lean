import ClusterAccess.Proofs.Identity.Metadata
import ClusterAccess.Proofs.Identity.Subject

/-!
# Integers as subjects

An integer, of however many digits, is the subject of claims exactly if it fits a user id, and then
it is that id (`readAll_numeral`).  Up to 64 bits it is read as a word.  What is longer is read as a
double, which may be rounded, but never down to less than 2^64, and is refused.  Below zero nothing
is accepted, and zero behind a minus, which is read as a double as well, is zero.
-/

namespace ClusterAccess.Claims

open Json (Failure Literal Numeral Reader Source valuesOf)

/-! ## The number of an integer -/

section Numbers

variable (i : Numeral) {user : UserId}

theorem value_numeral : i.literal.value = (i.value : ℚ) := by
  have hmagnitude : i.literal.magnitude = Literal.ofDigits i.digits :=
    Literal.magnitude_of_plain rfl rfl
  rw [Literal.value, hmagnitude, Numeral.value]
  change (if i.negative = true then _ else _) = _
  split
  · rw [Int.cast_neg, Int.cast_natCast]
  · rw [Int.cast_natCast]

/-- An integer that is no smaller than zero and fits 64 bits is taken for a word as it stands. -/
theorem word?_numeral (hnonneg : 0 ≤ i.value) (hlt : i.value < 2 ^ 64) :
    ∃ word : UInt64, i.literal.word? = some word.toNat ∧ (word.toNat : ℤ) = i.value := by
  have hmagnitude : i.literal.magnitude = (i.value : ℚ) := by
    rw [← Literal.abs_value, value_numeral, abs_of_nonneg (by exact_mod_cast hnonneg)]
  cases hword : i.literal.word? with
  | none =>
    have hlarge := Literal.le_magnitude_of_long hword rfl rfl
    rw [hmagnitude] at hlarge
    exact absurd hlt (not_lt_of_ge (by exact_mod_cast hlarge))
  | some word =>
    obtain ⟨-, -, hvalue, hfits⟩ := Literal.magnitude_of_word hword
    have hofNat : (UInt64.ofNat word).toNat = word := UInt64.toNat_ofNat_of_lt' hfits
    refine ⟨.ofNat word, by rw [hofNat], ?_⟩
    rw [hofNat]
    rw [hmagnitude] at hvalue
    exact_mod_cast hvalue.symm

theorem subjectOfNumber?_zero : subjectOfNumber? (.double (Double.zero true)) = some ⟨0⟩ := by
  decide +kernel

/-- **An integer names the user that it is**, and no other one. -/
theorem subjectOfNumber?_numeral :
    i.literal.number?.bind subjectOfNumber? = some user ↔ (user.value.toNat : ℤ) = i.value := by
  constructor
  · intro h
    obtain ⟨n, hn, hsubject⟩ := Option.bind_eq_some_iff.mp h
    have hvalue := value_of_plain hn hsubject rfl rfl
    rw [value_numeral] at hvalue
    exact_mod_cast hvalue.symm
  · intro h
    have hlt : i.value < 2 ^ 64 := by
      rw [← h]
      exact_mod_cast user.value.toNat_lt
    obtain ⟨word, hword, hvalue⟩ := word?_numeral i (h ▸ Int.natCast_nonneg _) hlt
    obtain rfl : user = ⟨word⟩ := by
      obtain ⟨value⟩ := user
      exact congrArg UserId.mk (UInt64.toNat_inj.mp (by exact_mod_cast h.trans hvalue.symm))
    cases hsign : i.negative with
    | false =>
      rw [Literal.number?_of_word hword hsign, UInt64.ofNat_toNat]
      rfl
    | true =>
      -- behind a minus there is only zero
      have hle : i.value ≤ 0 := by
        rw [Numeral.value, hsign, if_pos rfl]
        exact Int.neg_nonpos_of_nonneg (Int.natCast_nonneg _)
      have hzero : word.toNat = 0 := by omega
      obtain rfl : word = 0 := UInt64.toNat_inj.mp hzero
      rw [Literal.number?_of_zero hword hsign, Option.bind_some, subjectOfNumber?_zero]

end Numbers

/-! ## The text of an integer -/

section Texts

variable (i : Numeral)

/-- No blanks stand before an integer. -/
theorem dropSpaces_numeral : Reader.dropSpaces i.text = i.text := by
  unfold Numeral.text
  cases i.negative with
  | true => rfl
  | false =>
    cases hdigits : i.digits with
    | nil => exact absurd hdigits i.ne_nil
    | cons d ds => exact Reader.dropSpaces_char (Json.Reader.digitChar_ne d).1

/-- An integer can be read if it has a number, and is that number. -/
theorem claimOf?_numeral : claimOf? i.text = i.literal.number?.map .number := by
  have hliteral : Reader.literal (ε := Empty) i.text = .ok i.literal [] := by
    rw [← List.append_nil i.text]
    exact Reader.literal_numeral i trivial
  have hread := hliteral
  rw [← dropSpaces_numeral] at hread
  rw [claimOf?, Json.valueOf?, Reader.readAll, Reader.value_of_literal hread, dropSpaces_numeral]
  cases hn : i.literal.number? with
  | none =>
    obtain ⟨r, herror⟩ := Reader.number_of_none hliteral hn
    rw [Reader.map_of_error herror]
    rfl
  | some n =>
    rw [Reader.map_of_ok (Reader.number_of_literal hliteral hn)]
    rfl

/-- An integer is a subject if its number names a user, and names that user. -/
theorem subjectOfText_numeral {user : UserId} :
    subjectOfText i.text = .ok user ↔ (user.value.toNat : ℤ) = i.value := by
  rw [← subjectOfNumber?_numeral, subjectOfText, claimOf?_numeral]
  cases i.literal.number? with
  | none => exact iff_of_false (fun h => by cases h) fun h => by cases h
  | some n =>
    change (subjectOf (.number n)).mapError Failure.rejected = _ ↔ subjectOfNumber? n = _
    rw [subjectOf]
    cases subjectOfNumber? n with
    | none => exact iff_of_false (fun h => by cases h) fun h => by cases h
    | some id =>
      constructor <;>
      · intro h
        cases h
        rfl

end Texts

/-! ## Claims -/

/-- **Integer subjects are read exactly**, whatever their length: an integer is accepted if and only
if it fits a user id, and the user is that integer. -/
theorem readAll_numeral {payload : Source} {members : List (String × Source)} {i : Numeral}
    (h : Framed payload members) (hone : valuesOf "user_id" members = [i.text]) :
    (∀ claims, readAll payload = .ok claims → (claims.user.value.toNat : ℤ) = i.value) ∧
      ((∃ claims, readAll payload = .ok claims) ↔ 0 ≤ i.value ∧ i.value < 2 ^ 64) := by
  have huser : (readAll payload).map Claims.user = subjectOfText i.text := by
    rw [user_of_readAll h, hone]
  have hexact {claims : Claims} (hclaims : readAll payload = .ok claims) :
      (claims.user.value.toNat : ℤ) = i.value := by
    rw [hclaims] at huser
    exact (subjectOfText_numeral i).mp huser.symm
  refine ⟨fun claims => hexact, fun ⟨claims, hclaims⟩ => ?_, fun ⟨hnonneg, hlt⟩ => ?_⟩
  · rw [← hexact hclaims]
    exact ⟨Int.natCast_nonneg _, by exact_mod_cast claims.user.value.toNat_lt⟩
  · obtain ⟨word, -, hvalue⟩ := word?_numeral i hnonneg hlt
    have hsubject : subjectOfText i.text = .ok ⟨word⟩ := (subjectOfText_numeral i).mpr hvalue
    rw [hsubject] at huser
    cases hread : readAll payload with
    | ok claims => exact ⟨claims, rfl⟩
    | error e =>
      rw [hread] at huser
      cases huser

/-- Zero, behind a minus. -/
def minusZero : Numeral := (Numeral.ofNat 0).minus

/-- The first integer that is no user id. -/
def beyondWords : Numeral := .ofNat (2 ^ 64)

/-- A payload whose subject is an integer, beside a name that is none. -/
def integerPayload (i : Numeral) : Source :=
  Text.pieces "\x7b\"username\":[0.5],\"user_id\": " ++ i.text ++ Text.pieces "\x7d"

def integerMembers (i : Numeral) : List (String × Source) :=
  [("username", Text.pieces "[0.5]"), ("user_id", i.text)]

/-- On both ends of the range: `-0` is user 0, and 2^64 is no user. -/
theorem readAll_numeral_ends :
    Framed (integerPayload minusZero) (integerMembers minusZero) ∧
      Framed (integerPayload beyondWords) (integerMembers beyondWords) ∧
      (∃ claims, readAll (integerPayload minusZero) = .ok claims ∧ claims.user.value.toNat = 0) ∧
      ¬ ∃ claims, readAll (integerPayload beyondWords) = .ok claims := by
  have hzero : Framed (integerPayload minusZero) (integerMembers minusZero) :=
    ⟨⟨by decide +kernel, by decide +kernel⟩, by decide +kernel⟩
  have hbeyond : Framed (integerPayload beyondWords) (integerMembers beyondWords) :=
    ⟨⟨by decide +kernel, by decide +kernel⟩, by decide +kernel⟩
  refine ⟨hzero, hbeyond, ?_, fun haccepted => ?_⟩
  · obtain ⟨hexact, haccepted⟩ := readAll_numeral (i := minusZero) hzero (by decide +kernel)
    obtain ⟨claims, hclaims⟩ := haccepted.mpr (by decide)
    have hvalue : minusZero.value = 0 := by decide
    have huser := hexact claims hclaims
    rw [hvalue] at huser
    exact ⟨claims, hclaims, by exact_mod_cast huser⟩
  · have hrange := (readAll_numeral (i := beyondWords) hbeyond (by decide +kernel)).2.mp haccepted
    exact absurd hrange.2 (by decide +kernel)

end ClusterAccess.Claims
