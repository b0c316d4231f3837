import ClusterAccess.Json.Number
import ClusterAccess.Proofs.Double.Scaling

/-!
# What a literal stands for

A number literal denotes a number, whatever becomes of it when it is read (`Literal.value`).  A word
that is written without fraction and exponent is read as itself.  Everything else is read as a
double: the digits that fit a word are taken, and those that are left out are too far behind to
matter more than a rounding does.  So the double is next to the number (`Literal.abs_sub_le`), but
not always at it.
-/

namespace ClusterAccess.Json.Literal

open Double (Near halfUnit halfUnit_pos shrink shrink_pos)

/-! ## Digits -/

section Digits

variable {limit taken : ℕ} {a b ds : List Digit}

theorem foldl_digits (n : ℕ) (ds : List Digit) :
    ds.foldl (fun n digit => n * 10 + digit.val) n = n * 10 ^ ds.length + ofDigits ds := by
  unfold ofDigits
  induction ds using List.reverseRecOn with
  | nil => simp
  | append_singleton ds d ih =>
    rw [List.foldl_append, List.foldl_append, ih, List.length_append, Nat.pow_add]
    simp only [List.foldl_cons, List.foldl_nil, List.length_singleton, Nat.pow_one]
    rw [Nat.add_mul, Nat.mul_assoc, Nat.add_assoc]

theorem ofDigits_append (a b : List Digit) :
    ofDigits (a ++ b) = ofDigits a * 10 ^ b.length + ofDigits b := by
  rw [ofDigits, List.foldl_append, foldl_digits]
  rfl

theorem ofDigits_cons (d : Digit) (ds : List Digit) :
    ofDigits (d :: ds) = d.val * 10 ^ ds.length + ofDigits ds := by
  have hd : ofDigits [d] = d.val := Nat.zero_add _
  rw [← hd, ← ofDigits_append]
  rfl

theorem ofDigits_lt (ds : List Digit) : ofDigits ds < 10 ^ ds.length := by
  induction ds using List.reverseRecOn with
  | nil => exact Nat.one_pos
  | append_singleton ds d ih =>
    have hd : ofDigits [d] = d.val := Nat.zero_add _
    rw [ofDigits_append, hd, List.length_append, List.length_singleton, Nat.pow_succ (n := 10)]
    have hdigit := d.isLt
    omega

/-- **The digits that are taken** are those in front, and they are all, or one more does not fit. -/
theorem takeBelow_spec (limit taken : ℕ) (ds : List Digit) :
    ∃ used, ds = used ++ (takeBelow limit taken ds).2 ∧
      (takeBelow limit taken ds).1 = taken * 10 ^ used.length + ofDigits used ∧
      ((takeBelow limit taken ds).2 ≠ [] → limit ≤ (takeBelow limit taken ds).1 * 10 + 9) ∧
      (taken < limit → (takeBelow limit taken ds).1 < limit) := by
  induction ds generalizing taken with
  | nil => exact ⟨[], rfl, by simp [takeBelow, ofDigits], fun h => absurd rfl h, id⟩
  | cons d ds ih =>
    by_cases hfits : taken * 10 + d.val < limit
    · have htake : takeBelow limit taken (d :: ds) = takeBelow limit (taken * 10 + d.val) ds := by
        rw [takeBelow, if_pos hfits]
      obtain ⟨used, hds, hword, hleft, hlt⟩ := ih (taken * 10 + d.val)
      rw [htake]
      refine ⟨d :: used, congrArg (d :: ·) hds, ?_, hleft, fun _ => hlt hfits⟩
      rw [hword, ofDigits_cons, List.length_cons, Nat.pow_succ]
      ring
    · have htake : takeBelow limit taken (d :: ds) = (taken, d :: ds) := by
        rw [takeBelow, if_neg hfits]
      rw [htake]
      refine ⟨[], rfl, by simp [ofDigits], fun _ => ?_, id⟩
      have hd := d.isLt
      omega

/-- Digits that do not all fit are beyond the limit. -/
theorem le_of_takeBelow (h : (takeBelow limit taken ds).2 ≠ []) :
    limit ≤ taken * 10 ^ ds.length + ofDigits ds := by
  induction ds generalizing taken with
  | nil => exact absurd rfl h
  | cons d ds ih =>
    rw [ofDigits_cons, List.length_cons]
    have hsplit : taken * 10 ^ (ds.length + 1) + (d.val * 10 ^ ds.length + ofDigits ds) =
        (taken * 10 + d.val) * 10 ^ ds.length + ofDigits ds := by ring
    rw [hsplit]
    by_cases hfits : taken * 10 + d.val < limit
    · rw [takeBelow, if_pos hfits] at h
      exact ih h
    · exact (Nat.not_lt.mp hfits).trans <|
        (Nat.le_mul_of_pos_right _ (by positivity)).trans (Nat.le_add_right _ _)

end Digits

/-! ## Values -/

/-- The number that a literal denotes, without its sign. -/
def magnitude (l : Literal) : ℚ :=
  ofDigits (l.whole ++ l.fraction) * 10 ^ (l.power - l.fraction.length)

/-- The number that a literal denotes. -/
def value (l : Literal) : ℚ := if l.negative then -l.magnitude else l.magnitude

/-- How far the double of a literal may be from it: one part in 2^50, and two units. -/
def slack (l : Literal) : ℚ := l.magnitude / 2 ^ 50 + 2 / Double.one

theorem magnitude_nonneg (l : Literal) : 0 ≤ l.magnitude := by
  unfold magnitude
  positivity

theorem slack_pos (l : Literal) : 0 < l.slack :=
  add_pos_of_nonneg_of_pos (div_nonneg l.magnitude_nonneg (by norm_num))
    (div_pos two_pos Double.cast_one_pos)

/-- Two units are next to nothing. -/
theorem two_units_lt : (2 : ℚ) / Double.one < 1 / 2 ^ 50 := by
  have hlt : 2 * 2 ^ 50 < Double.one :=
    Nat.lt_of_lt_of_le (by decide : 2 * 2 ^ 50 < 2 ^ 52) (Double.two_pow_le_one (by decide))
  have hcast : ((2 * 2 ^ 50 : ℕ) : ℚ) < Double.one := Nat.cast_lt.mpr hlt
  rw [div_lt_div_iff₀ Double.cast_one_pos (by positivity), one_mul]
  exact_mod_cast hcast

theorem abs_value (l : Literal) : |l.value| = l.magnitude := by
  unfold value
  split
  · rw [abs_neg, abs_of_nonneg l.magnitude_nonneg]
  · exact abs_of_nonneg l.magnitude_nonneg

/-! ## Digits in front -/

/-- A number whose decimal form begins with those of a word, of which the last one has a given
power. -/
def Leads (word : ℕ) (power : ℤ) (v : ℚ) : Prop :=
  word * 10 ^ power ≤ v ∧ v < (word + 1) * 10 ^ power

theorem leads_append (a b : List Digit) (power : ℤ) :
    Leads (ofDigits a) power (ofDigits (a ++ b) * 10 ^ (power - b.length)) := by
  have hten : (0 : ℚ) < 10 ^ power := by positivity
  have hsplit : (10 : ℚ) ^ power = 10 ^ (power - b.length) * 10 ^ b.length := by
    rw [← zpow_natCast, ← zpow_add₀ (by norm_num), sub_add_cancel]
  have hrest : (ofDigits b : ℚ) < 10 ^ b.length := by exact_mod_cast ofDigits_lt b
  have hscale : (0 : ℚ) < 10 ^ (power - b.length) := by positivity
  rw [Leads, ofDigits_append, hsplit]
  push_cast
  constructor
  · have hnonneg : (0 : ℚ) ≤ ofDigits b * 10 ^ (power - b.length) := by positivity
    linarith
  · have hless := mul_lt_mul_of_pos_right hrest hscale
    linarith

/-- Behind so many digits it does not matter more than a rounding what comes. -/
theorem Leads.near {word : ℕ} {power : ℤ} {u v : ℚ} (hword : 2 ^ 53 ≤ word)
    (hu : Leads word power u) (hv : Leads word power v) : Near 1 0 u v := by
  have hten : (0 : ℚ) < 10 ^ power := by positivity
  have hshrink : (word + 1) * shrink ≤ word := by
    have hword' : (2 : ℚ) ^ 53 ≤ word := by exact_mod_cast hword
    rw [shrink]
    linarith
  have hless {x y : ℚ} (hx : Leads word power x) (hy : Leads word power y) :
      x * shrink ^ 1 ≤ y + 0 := by
    rw [pow_one, add_zero]
    calc x * shrink ≤ (word + 1) * 10 ^ power * shrink :=
        mul_le_mul_of_nonneg_right hx.2.le shrink_pos.le
      _ = (word + 1) * shrink * 10 ^ power := by ring
      _ ≤ word * 10 ^ power := mul_le_mul_of_nonneg_right hshrink hten.le
      _ ≤ y := hy.1
  exact ⟨hless hu hv, hless hv hu⟩

/-! ## The digits that are read -/

variable {l : Literal}

/-- The word that is taken of a literal for its double, and the power of ten that goes with it. -/
def taken (l : Literal) : ℕ × ℤ :=
  let (word, wholeLeft) := takeBelow (2 ^ 64) 0 l.whole
  let (word, fractionLeft) := takeBelow (2 ^ 64) word l.fraction
  (word, wholeLeft.length - ((l.fraction.length : ℤ) - fractionLeft.length) + l.power)

theorem taken_lt (l : Literal) : l.taken.1 < 2 ^ 64 := by
  obtain ⟨-, -, -, -, hwhole⟩ := takeBelow_spec (2 ^ 64) 0 l.whole
  obtain ⟨-, -, -, -, hfraction⟩ :=
    takeBelow_spec (2 ^ 64) (takeBelow (2 ^ 64) 0 l.whole).1 l.fraction
  exact hfraction (hwhole (by decide))

/-- **What is read of the digits** is one rounding away from the literal. -/
theorem near_taken (l : Literal) : Near 1 0 (l.taken.1 * 10 ^ l.taken.2) l.magnitude := by
  obtain ⟨wholeUsed, hwhole, hword, hwholeLeft, -⟩ := takeBelow_spec (2 ^ 64) 0 l.whole
  obtain ⟨used, hfraction, hword', hleft, -⟩ :=
    takeBelow_spec (2 ^ 64) (takeBelow (2 ^ 64) 0 l.whole).1 l.fraction
  unfold taken magnitude
  dsimp only
  generalize (takeBelow (2 ^ 64) 0 l.whole).1 = first at *
  generalize (takeBelow (2 ^ 64) 0 l.whole).2 = wholeLeft at *
  generalize (takeBelow (2 ^ 64) first l.fraction).1 = word at *
  generalize (takeBelow (2 ^ 64) first l.fraction).2 = fractionLeft at *
  rw [Nat.zero_mul, Nat.zero_add] at hword
  obtain rfl : word = ofDigits (wholeUsed ++ used) := by rw [ofDigits_append, hword', hword]
  have hlength : (l.fraction.length : ℤ) = used.length + fractionLeft.length := by
    rw [hfraction, List.length_append, Nat.cast_add]
  have htotal : (l.fraction.length : ℤ) - fractionLeft.length = used.length := by
    rw [hlength, add_sub_cancel_right]
  rw [htotal]
  by_cases hall : wholeLeft = []
  · -- all of the whole digits are taken, and what is left are digits of the fraction
    subst hall
    rw [List.append_nil] at hwhole
    obtain rfl : wholeUsed = l.whole := hwhole.symm
    have hfront := leads_append (l.whole ++ used) [] (l.power - used.length)
    have hliteral := leads_append (l.whole ++ used) fractionLeft (l.power - used.length)
    rw [List.append_nil, List.length_nil, Nat.cast_zero, sub_zero] at hfront
    rw [List.append_assoc, ← hfraction, sub_sub, ← hlength] at hliteral
    rw [List.length_nil, Nat.cast_zero, zero_sub, neg_add_eq_sub]
    by_cases hrest : fractionLeft = []
    · obtain rfl : used = l.fraction := by rw [hfraction, hrest, List.append_nil]
      exact (Near.refl _).weaken (by positivity) (by positivity) zero_le_one le_rfl
    · have hword := hleft hrest
      exact hfront.near (by omega) hliteral
  · -- all that is taken after the first digits that are left does not matter
    have hfront := leads_append wholeUsed used (wholeLeft.length + l.power)
    have hliteral := leads_append wholeUsed (wholeLeft ++ l.fraction) (wholeLeft.length + l.power)
    rw [← List.append_assoc, ← hwhole, List.length_append, Nat.cast_add, add_sub_add_left_eq_sub]
      at hliteral
    rw [← sub_add_eq_add_sub] at hfront
    have hword := hwholeLeft hall
    exact hfront.near (by omega) hliteral

/-! ## The double of a literal -/

theorem double?_eq (l : Literal) : l.double? =
    ((Double.ofNat? l.taken.1).bind fun x => x.scaleByTen? l.taken.2).map fun y =>
      { y with negative := l.negative } := by
  unfold double? taken
  dsimp only [Option.bind_eq_bind]
  cases Double.ofNat? _ with
  | none => rfl
  | some x =>
    dsimp only [Option.bind_some]
    cases x.scaleByTen? _ <;> rfl

theorem double?_eq_some {y : Double} (h : l.double? = some y) :
    ∃ x z, Double.ofNat? l.taken.1 = some x ∧ x.scaleByTen? l.taken.2 = some z ∧
      y.negative = l.negative ∧ y.units = z.units := by
  rw [double?_eq] at h
  obtain ⟨z, hz, rfl⟩ := Option.map_eq_some_iff.mp h
  obtain ⟨x, hx, hz⟩ := Option.bind_eq_some_iff.mp hz
  exact ⟨x, z, hx, hz, rfl, rfl⟩

/-- The double of a literal is six roundings away from it, up to the least magnitude. -/
theorem near_double {y : Double} (h : l.double? = some y) :
    Near 6 (2 * halfUnit) y.magnitude l.magnitude := by
  obtain ⟨x, z, hx, hz, -, hunits⟩ := double?_eq_some h
  have hhalf := halfUnit_pos
  have hscaled := Double.near_of_scaleByTen l.taken_lt hx hz
  have htrans := hscaled.trans l.near_taken (by linarith) le_rfl
  rw [add_zero] at htrans
  rwa [Double.magnitude, hunits]

theorem two_halfUnits : 2 * (2 * halfUnit) = 2 / Double.one := by
  rw [halfUnit]
  ring

/-- **The double of a literal** is next to it. -/
theorem abs_sub_le {y : Double} (h : l.double? = some y) :
    |y.magnitude - l.magnitude| ≤ l.slack := by
  have hhalf := halfUnit_pos
  have hle := (near_double h).abs_sub_le l.magnitude_nonneg (by linarith)
  rwa [two_halfUnits] at hle

/-- A literal without a double is beyond all words, or next to that. -/
theorem le_of_double_eq_none (h : l.double? = none) : 2 ^ 64 ≤ l.magnitude + l.slack := by
  rw [double?_eq, Option.map_eq_none_iff] at h
  have htaken : (l.taken.1 : ℚ) ≤ 2 ^ 64 := by exact_mod_cast Nat.le_of_lt l.taken_lt
  cases hx : Double.ofNat? l.taken.1 with
  | none =>
    have hlarge := Double.le_of_ofQuotient_eq_none Nat.one_pos hx
    rw [Nat.cast_one, div_one] at hlarge
    linarith
  | some x =>
    rw [hx, Option.bind_some] at h
    have hlarge := Double.le_of_scaleByTen_eq_none l.taken_lt hx h
    have hnear := l.near_taken.le
    have hshrink : 1 ≤ shrink * (1 + 1 / 2 ^ 50) := by norm_num [shrink]
    have hunits : (0 : ℚ) < 2 / Double.one := div_pos two_pos Double.cast_one_pos
    rw [pow_one, add_zero] at hnear
    rw [slack]
    generalize (l.taken.1 : ℚ) * 10 ^ l.taken.2 = r at *
    have hr : r * 1 ≤ r * (shrink * (1 + 1 / 2 ^ 50)) :=
      mul_le_mul_of_nonneg_left hshrink (le_trans (by norm_num) hlarge)
    have hmagnitude := mul_le_mul_of_nonneg_right hnear (by norm_num : (0 : ℚ) ≤ 1 + 1 / 2 ^ 50)
    linarith

/-! ## Words -/

theorem word?_cases (l : Literal) :
    (∃ word, l.word? = some word ∧ l.fraction = [] ∧ l.exponent = none ∧
      takeBelow (2 ^ 64) 0 l.whole = (word, [])) ∨
    (l.word? = none ∧ (l.fraction = [] → l.exponent = none →
      (takeBelow (2 ^ 64) 0 l.whole).2 ≠ [])) := by
  unfold word?
  split
  · rename_i word hfraction hexponent htake
    exact .inl ⟨word, rfl, hfraction, hexponent, htake⟩
  · rename_i hother
    refine .inr ⟨rfl, fun hfraction hexponent hnil => ?_⟩
    exact hother _ hfraction hexponent (Prod.ext rfl hnil)

/-- What is written as a word denotes its digits. -/
theorem magnitude_of_plain (hfraction : l.fraction = []) (hexponent : l.exponent = none) :
    l.magnitude = ofDigits l.whole := by
  rw [magnitude, power, hfraction, hexponent, List.append_nil, List.length_nil, Nat.cast_zero,
    sub_zero, zpow_zero, mul_one]

/-- A literal that is written as a word denotes it, but for the sign. -/
theorem magnitude_of_word {word : ℕ} (h : l.word? = some word) :
    l.fraction = [] ∧ l.exponent = none ∧ l.magnitude = word ∧ word < 2 ^ 64 := by
  rcases l.word?_cases with ⟨word', hword, hfraction, hexponent, htake⟩ | ⟨hnone, -⟩
  · obtain rfl : word = word' := Option.some.inj (h.symm.trans hword)
    obtain ⟨used, hwhole, hdigits, -, hlt⟩ := takeBelow_spec (2 ^ 64) 0 l.whole
    rw [htake] at hwhole hdigits hlt
    rw [Nat.zero_mul, Nat.zero_add] at hdigits
    rw [List.append_nil] at hwhole
    refine ⟨hfraction, hexponent, ?_, hlt (by decide)⟩
    dsimp only at hdigits
    rw [magnitude_of_plain hfraction hexponent, hwhole, hdigits]
  · rw [hnone] at h
    cases h

/-- What is written as a word and is too long for one is beyond all words. -/
theorem le_magnitude_of_long (hword : l.word? = none) (hfraction : l.fraction = [])
    (hexponent : l.exponent = none) : 2 ^ 64 ≤ l.magnitude := by
  rcases l.word?_cases with ⟨word, hsome, -⟩ | ⟨-, hlong⟩
  · rw [hsome] at hword
    cases hword
  have hle := le_of_takeBelow (hlong hfraction hexponent)
  rw [Nat.zero_mul, Nat.zero_add] at hle
  rw [magnitude_of_plain hfraction hexponent]
  exact_mod_cast hle

/-- **What is written as a word and is too long for one** has no double among the words. -/
theorem le_units_of_long {y : Double} (hword : l.word? = none) (hfraction : l.fraction = [])
    (hexponent : l.exponent = none) (h : l.double? = some y) : 2 ^ 64 * Double.one ≤ y.units := by
  obtain ⟨x, z, hx, hz, -, hunits⟩ := double?_eq_some h
  rcases l.word?_cases with ⟨word, hsome, -⟩ | ⟨-, hlong⟩
  · rw [hsome] at hword
    cases hword
  have hleft := hlong hfraction hexponent
  obtain ⟨used, -, -, hfull, -⟩ := takeBelow_spec (2 ^ 64) 0 l.whole
  have htaken : l.taken = ((takeBelow (2 ^ 64) 0 l.whole).1,
      Int.ofNat (takeBelow (2 ^ 64) 0 l.whole).2.length) := by
    simp [taken, power, hfraction, hexponent, takeBelow]
  rw [htaken] at hx hz
  rw [hunits]
  exact Double.le_units_of_scaleByTen (hfull hleft) (List.length_pos_of_ne_nil hleft) hx hz

/-! ## Numbers -/

/-- What a literal is read as, in the order in which it is tried. -/
theorem number?_cases (l : Literal) :
    (∃ word : UInt64, l.number? = some (.natural word) ∧ l.word? = some word.toNat ∧
      l.negative = false) ∨
    (∃ word : UInt64, l.number? = some (.negative word) ∧ l.word? = some word.toNat ∧
      l.negative = true ∧ 0 < word.toNat) ∨
    (l.number? = l.double?.map .double ∧ (l.word? = none ∨ l.negative = true)) := by
  have hofNat {word : ℕ} (hword : l.word? = some word) : (UInt64.ofNat word).toNat = word :=
    UInt64.toNat_ofNat_of_lt' (magnitude_of_word hword).2.2.2
  unfold number?
  split
  · rename_i word hword hnegative
    exact .inl ⟨.ofNat word, rfl, by rw [hofNat hword, hword], hnegative⟩
  · rename_i word hword hnegative
    split
    · rename_i hrange
      refine .inr (.inl ⟨.ofNat word, rfl, by rw [hofNat hword, hword], hnegative, ?_⟩)
      rw [hofNat hword]
      exact hrange.1
    · exact .inr (.inr ⟨rfl, .inr hnegative⟩)
  · rename_i hword
    exact .inr (.inr ⟨rfl, .inl hword⟩)

theorem double?_of_number {x : Double} (h : l.number? = some (.double x)) :
    l.double? = some x ∧ (l.word? = none ∨ l.negative = true) := by
  rcases l.number?_cases with ⟨word, hword, -⟩ | ⟨word, hword, -⟩ | ⟨hdouble, hsign⟩
  · rw [h] at hword
    cases hword
  · rw [h] at hword
    cases hword
  · rw [h] at hdouble
    obtain ⟨y, hy, hx⟩ := Option.map_eq_some_iff.mp hdouble.symm
    cases hx
    exact ⟨hy, hsign⟩

/-- A literal that is read as a word denotes it. -/
theorem value_of_natural {word : UInt64} (h : l.number? = some (.natural word)) :
    l.value = word.toNat := by
  rcases l.number?_cases with ⟨word', hword, hliteral, hsign⟩ | ⟨word', hword, -⟩ | ⟨hdouble, -⟩
  · rw [h] at hword
    cases hword
    rw [value, hsign, (magnitude_of_word hliteral).2.2.1]
    rfl
  · rw [h] at hword
    cases hword
  · rw [h] at hdouble
    obtain ⟨x, -, hx⟩ := Option.map_eq_some_iff.mp hdouble.symm
    cases hx

theorem number?_of_word {word : ℕ} (hword : l.word? = some word) (hsign : l.negative = false) :
    l.number? = some (.natural (.ofNat word)) := by
  simp only [number?, hword, hsign]

/-- Zero is read as a double behind a minus, and that is zero. -/
theorem number?_of_zero (hword : l.word? = some 0) (hsign : l.negative = true) :
    l.number? = some (.double (Double.zero true)) := by
  have hnat : Double.ofNat? 0 = some (Double.zero false) := by decide +kernel
  have hdouble : l.double? = some (Double.zero true) := by
    rcases l.word?_cases with ⟨word, hword', hfraction, hexponent, htake⟩ | ⟨hnone, -⟩
    · obtain rfl : 0 = word := Option.some.inj (hword.symm.trans hword')
      have htaken : l.taken = (0, 0) := by
        simp [taken, power, hfraction, hexponent, htake, takeBelow]
      rw [double?_eq, htaken, hnat, hsign]
      rfl
    · rw [hnone] at hword
      cases hword
  simp only [number?, hword, hsign, Nat.lt_irrefl, false_and, if_false, hdouble, Option.map_some]

/-- The double of a literal that is a word without sign, its fraction apart, is next to it. -/
theorem abs_sub_value_le {y : Double} (h : l.double? = some y) (hword : y.isWord = true) :
    |y.magnitude - l.value| ≤ l.slack := by
  obtain ⟨-, -, -, -, hnegative, -⟩ := double?_eq_some h
  have hle := abs_sub_le h
  rw [Double.isWord, Bool.and_eq_true, Bool.or_eq_true] at hword
  rw [value]
  split
  · -- of the negative doubles only zero is a word
    rename_i hminus
    have hzero : y.magnitude = 0 := by
      rcases hword.1 with hpositive | hzero
      · rw [hnegative, hminus] at hpositive
        cases hpositive
      · have hunits : y.units = 0 := of_decide_eq_true hzero
        rw [Double.magnitude, hunits, Nat.cast_zero, zero_div]
    rw [hzero] at hle ⊢
    rwa [zero_sub, neg_neg, ← abs_neg, ← zero_sub]
  · exact hle

end ClusterAccess.Json.Literal
