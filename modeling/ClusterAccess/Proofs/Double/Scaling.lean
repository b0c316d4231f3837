import ClusterAccess.Proofs.Double.Rounding
import Mathlib.Algebra.Order.Field.Power

/-!
# Scaling by powers of ten

A word that is scaled by a power of ten is rounded five times at most: as a double, with each of up
to two powers of ten, and with each of the results.  What is too large for the format is far beyond
all words, and what is given up as zero is less than half of the least magnitude.
-/

namespace ClusterAccess.Double

variable {n word : ℕ} {x y p : Double} {exponent : ℤ}

/-! ## Powers of ten -/

theorem ten_pow_lt_limit : 10 ^ greatestTenPower * one * 2 ^ 53 < limit * (2 ^ 53 - 1) := by
  -- a quarter of the exponents is small enough to be computed with
  have hquarter : 10 ^ 77 * 8 ≤ 7 * 2 ^ 256 := by decide
  have hpower := Nat.pow_le_pow_left hquarter 4
  rw [Nat.mul_pow, Nat.mul_pow, ← Nat.pow_mul, ← Nat.pow_mul] at hpower
  obtain ⟨n, hn⟩ : ∃ n, n = 256 * 4 := ⟨_, rfl⟩
  have hten : 77 * 4 = greatestTenPower := rfl
  have hpos := Nat.two_pow_pos n
  rw [hten, ← hn] at hpower
  rw [limit_eq hn, Nat.mul_right_comm, Nat.mul_right_comm _ one]
  generalize 10 ^ greatestTenPower = ten at *
  generalize 2 ^ n = two at *
  exact Nat.mul_lt_mul_of_pos_right (by omega) one_pos

/-- The powers of ten up to the greatest one are within the format. -/
theorem ofNat?_ten_pow (h : n ≤ greatestTenPower) : ∃ p, ofNat? (10 ^ n) = some p := by
  refine Option.ne_none_iff_exists'.mp fun hnone => ?_
  have hlimit := limit_le_of_ofQuotient_eq_none hnone
  have hlarge : 2 ^ 52 ≤ 10 ^ n * one / 1 := by
    rw [Nat.div_one]
    have hone : 2 ^ 52 ≤ one := two_pow_le_one (by decide)
    exact Nat.le_trans hone (Nat.le_mul_of_pos_left _ (Nat.pow_pos (by decide)))
  have hnear := (near_roundUnits_of_large Nat.one_pos hlarge).le
  have hunits := mul_le_mul_of_nonneg_right (Nat.cast_le (α := ℚ).mpr hlimit) shrink_pos.le
  rw [pow_one, Nat.cast_one, div_one, add_zero] at hnear
  have hcast : ((limit * (2 ^ 53 - 1) : ℕ) : ℚ) ≤ (10 ^ n * one * 2 ^ 53 : ℕ) := by
    rw [Nat.cast_mul, Nat.cast_mul (10 ^ n * one)]
    have hshrink : ((2 ^ 53 - 1 : ℕ) : ℚ) = shrink * (2 ^ 53 : ℕ) := by norm_num [shrink]
    rw [hshrink, ← mul_assoc]
    exact mul_le_mul_of_nonneg_right (hunits.trans hnear) (Nat.cast_nonneg _)
  have hpower : 10 ^ n * one * 2 ^ 53 ≤ 10 ^ greatestTenPower * one * 2 ^ 53 :=
    Nat.mul_le_mul_right _ (Nat.mul_le_mul_right _ (Nat.pow_le_pow_right (by decide) h))
  exact absurd (Nat.cast_le.mp hcast) (Nat.not_le.mpr (Nat.lt_of_le_of_lt hpower ten_pow_lt_limit))

/-- What two quotients by the greatest power of ten leave of a word rounds to zero. -/
theorem le_ten_pow : 2 ^ 64 * one ≤ 10 ^ (2 * greatestTenPower + 1) := by
  obtain ⟨e, -, he, -, hone, -⟩ := exists_exponents
  calc 2 ^ 64 * one = 2 ^ (64 + e) := by rw [hone, ← Nat.pow_add]
    _ ≤ 2 ^ (3 * (2 * greatestTenPower + 1)) :=
      Nat.pow_le_pow_right (by decide) (by rw [greatestTenPower]; omega)
    _ = (2 ^ 3) ^ (2 * greatestTenPower + 1) := Nat.pow_mul _ _ _
    _ ≤ 10 ^ (2 * greatestTenPower + 1) := Nat.pow_le_pow_left (by decide) _

section Powers

variable (hp : ofNat? (10 ^ n) = some p)

include hp

theorem near_ten_pow : Near 1 0 p.magnitude (10 ^ n) := by
  have hnear := near_of_ofNat hp
  rwa [Nat.cast_pow, Nat.cast_ofNat] at hnear

theorem one_le_units_ten_pow : one ≤ p.units := one_le_units (Nat.pow_pos (by decide)) hp

theorem one_le_ten_pow : 1 ≤ p.magnitude := one_le_magnitude (Nat.pow_pos (by decide)) hp

/-- A product with a power of ten is two roundings away. -/
theorem near_mul_ten_pow {k : ℕ} {q : ℚ} (hx : one ≤ x.units) (hq : 0 ≤ q)
    (hnear : Near k 0 x.magnitude q) (h : x.mul? p = some y) :
    Near (k + 2) 0 y.magnitude (q * 10 ^ n) := by
  have hproduct := hnear.mul (near_ten_pow hp) x.magnitude_nonneg hq p.magnitude_nonneg
    (by positivity)
  have htrans := (near_of_mul hx (one_le_units_ten_pow hp) h).trans hproduct le_rfl le_rfl
  rwa [add_zero, ← add_assoc, add_comm 1 k] at htrans

/-- A quotient by a power of ten is two roundings away, up to half of the least magnitude. -/
theorem near_div_ten_pow {k : ℕ} {t q : ℚ} (hq : 0 ≤ q) (ht : 0 ≤ t)
    (hnear : Near k t x.magnitude q) (h : x.div? p = some y) :
    Near (k + 2) (t + halfUnit) y.magnitude (q / 10 ^ n) := by
  have hten : (1 : ℚ) ≤ 10 ^ n := one_le_pow₀ (by norm_num)
  have hquotient := hnear.div (near_ten_pow hp) x.magnitude_nonneg hq (one_le_ten_pow hp) hten ht
  have htrans := (near_of_div (one_le_units_ten_pow hp) h).trans hquotient halfUnit_pos.le ht
  rwa [← add_assoc, add_comm 1 k, add_comm halfUnit t] at htrans

/-- A word's quotient by a power of ten is not too large. -/
theorem div_ten_pow_ne_none {k : ℕ} {t q : ℚ} (hk : k ≤ 6) (ht : t ≤ 1) (hq : q ≤ 2 ^ 64)
    (hnear : Near k t x.magnitude q) : x.div? p ≠ none := by
  intro hnone
  have hlarge := le_of_div_eq_none (one_le_units_ten_pow hp) hnone
  have hquotient : x.magnitude / p.magnitude ≤ x.magnitude :=
    div_le_self x.magnitude_nonneg (one_le_ten_pow hp)
  have hshrink : 1 / 2 ≤ shrink ^ k :=
    le_trans (by norm_num [shrink]) (pow_le_pow_of_le_one shrink_pos.le shrink_le_one hk)
  have hhalf := mul_le_mul_of_nonneg_left hshrink x.magnitude_nonneg
  linarith [hnear.le]

end Powers

/-! ## Scaling -/

section Scale

variable (hword : word < 2 ^ 64) (hx : ofNat? word = some x)

include hx

theorem isZero_iff : x.isZero = true ↔ word = 0 := by
  rw [isZero, decide_eq_true_eq]
  constructor
  · intro hzero
    by_contra hne
    have hone := one_le_units (Nat.one_le_iff_ne_zero.mpr hne) hx
    have hpos := one_pos
    omega
  · rintro rfl
    rw [(ofQuotient?_eq_some hx).2]
    simp [roundUnits, divideToEven]

include hword

/-- **A word that is scaled by a power of ten** is five roundings away from what it should be, up to
the least magnitude. -/
theorem near_of_scaleByTen (h : x.scaleByTen? exponent = some y) :
    Near 5 (2 * halfUnit) y.magnitude (word * 10 ^ exponent) := by
  have hhalf := halfUnit_pos
  have hnear := near_of_ofNat hx
  have hword' : (0 : ℚ) ≤ word := Nat.cast_nonneg _
  cases exponent with
  | ofNat n =>
    rw [Int.ofNat_eq_natCast, zpow_natCast]
    rw [scaleByTen?] at h
    split at h
    · rename_i hzero
      obtain rfl : x = y := Option.some.inj h
      obtain rfl := (isZero_iff hx).mp hzero
      rw [Nat.cast_zero] at hnear ⊢
      rw [zero_mul]
      exact hnear.weaken x.magnitude_nonneg le_rfl (by decide) (by linarith)
    · rename_i hzero
      have hpos : 1 ≤ word := by
        have hne := mt (isZero_iff hx).mpr hzero
        omega
      split at h
      · obtain ⟨p, hp, hy⟩ := Option.bind_eq_some_iff.mp h
        exact (near_mul_ten_pow hp (one_le_units hpos hx) hword' hnear hy).weaken
          y.magnitude_nonneg (by positivity) (by decide) (by linarith)
      · cases h
  | negSucc m =>
    rw [zpow_negSucc, ← div_eq_mul_inv]
    rw [scaleByTen?] at h
    split at h
    · obtain ⟨p, hp, hy⟩ := Option.bind_eq_some_iff.mp h
      exact (near_div_ten_pow hp hword' le_rfl hnear hy).weaken y.magnitude_nonneg
        (by positivity) (by decide) (by linarith)
    split at h
    · rename_i hone htwo
      obtain ⟨z, hz, h⟩ := Option.bind_eq_some_iff.mp h
      obtain ⟨p, hp, hz⟩ := Option.bind_eq_some_iff.mp hz
      obtain ⟨p', hp', hy⟩ := Option.bind_eq_some_iff.mp h
      have hfirst := near_div_ten_pow hp hword' le_rfl hnear hz
      have hsecond := near_div_ten_pow hp' (by positivity) (by linarith) hfirst hy
      rw [div_div, ← pow_add, Nat.add_sub_cancel' (by omega), zero_add, ← two_mul] at hsecond
      exact hsecond
    · rename_i hone htwo
      obtain rfl : zero x.negative = y := Option.some.inj h
      have hzero : (zero x.negative).magnitude = 0 := by
        rw [magnitude, zero, Nat.cast_zero, zero_div]
      have hsmall : (word : ℚ) / 10 ^ (m + 1) ≤ 2 * halfUnit := by
        have hle : 2 ^ 64 * one ≤ 10 ^ (m + 1) :=
          Nat.le_trans le_ten_pow (Nat.pow_le_pow_right (by decide) (by omega))
        have hone : word * one ≤ 10 ^ (m + 1) :=
          Nat.le_trans (Nat.mul_le_mul_right _ (Nat.le_of_lt hword)) hle
        have hcast : ((word * one : ℕ) : ℚ) ≤ (10 ^ (m + 1) : ℕ) := Nat.cast_le.mpr hone
        rw [Nat.cast_mul, Nat.cast_pow, Nat.cast_ofNat] at hcast
        rw [halfUnit, mul_div, mul_one_div_cancel (by norm_num),
          div_le_div_iff₀ (by positivity) cast_one_pos]
        linarith
      rw [hzero]
      constructor
      · rw [zero_mul]
        positivity
      · exact (mul_le_of_le_one_right (by positivity) (shrink_pow_le_one 5)).trans (by linarith)

/-- What is too large for the format is not a word. -/
theorem le_of_scaleByTen_eq_none (h : x.scaleByTen? exponent = none) :
    (2 : ℚ) ^ 64 ≤ word * 10 ^ exponent := by
  have hnear := near_of_ofNat hx
  have hword' : (word : ℚ) ≤ 2 ^ 64 := by exact_mod_cast Nat.le_of_lt hword
  cases exponent with
  | ofNat n =>
    rw [Int.ofNat_eq_natCast, zpow_natCast]
    rw [scaleByTen?] at h
    split at h
    · cases h
    rename_i hzero
    have hpos : (1 : ℚ) ≤ word := by
      have hne := mt (isZero_iff hx).mpr hzero
      exact_mod_cast Nat.one_le_iff_ne_zero.mpr hne
    split at h
    · rename_i hn
      obtain ⟨p, hp⟩ := ofNat?_ten_pow hn
      rw [hp, Option.bind_some] at h
      have hlarge := le_of_mul_eq_none h
      have hproduct := (hnear.mul (near_ten_pow hp) x.magnitude_nonneg (Nat.cast_nonneg _)
        p.magnitude_nonneg (by positivity)).le
      have hshrink : 1 / 2 ≤ shrink ^ (1 + 1) := by norm_num [shrink]
      calc (2 : ℚ) ^ 64 ≤ 2 ^ 128 * (1 / 2) := by norm_num
        _ ≤ x.magnitude * p.magnitude * shrink ^ (1 + 1) :=
          mul_le_mul hlarge hshrink (by norm_num)
            (mul_nonneg x.magnitude_nonneg p.magnitude_nonneg)
        _ ≤ word * 10 ^ n := by linarith
    · rename_i hn
      have hten : (10 : ℚ) ^ 20 ≤ 10 ^ n := pow_le_pow_right₀ (by norm_num) (by
        rw [greatestTenPower] at hn
        omega)
      have hle := mul_le_mul hpos hten (by norm_num) (by linarith)
      linarith
  | negSucc m =>
    rw [scaleByTen?] at h
    split at h
    · rename_i hn
      obtain ⟨p, hp⟩ := ofNat?_ten_pow hn
      rw [hp, Option.bind_some] at h
      exact absurd h (div_ten_pow_ne_none hp (by decide) zero_le_one hword' hnear)
    split at h
    · rename_i hone htwo
      obtain ⟨p, hp⟩ := ofNat?_ten_pow (le_refl greatestTenPower)
      obtain ⟨p', hp'⟩ := ofNat?_ten_pow (n := m + 1 - greatestTenPower) (by omega)
      rw [hp, Option.bind_some] at h
      cases hz : x.div? p with
      | none => exact absurd hz (div_ten_pow_ne_none hp (by decide) zero_le_one hword' hnear)
      | some z =>
        rw [hz, hp', Option.bind_eq_bind, Option.bind_some, Option.bind_some] at h
        have hfirst := near_div_ten_pow hp (Nat.cast_nonneg _) le_rfl hnear hz
        have hsmall : (word : ℚ) / 10 ^ greatestTenPower ≤ 2 ^ 64 :=
          (div_le_self (Nat.cast_nonneg _) (one_le_pow₀ (by norm_num))).trans hword'
        have ht : 0 + halfUnit ≤ 1 := by linarith [halfUnit_le_half]
        exact absurd h (div_ten_pow_ne_none hp' (by decide) ht hsmall hfirst)
    · cases h

end Scale

/-! ## Long numbers

A number of which a word has taken as many digits as fit is beyond all words, and so has to be its
double.  This is closer than a rounding: it holds because doubles near the least such word are 256
apart. -/

section Long

/-- The least word that has no room for another digit, as a double. -/
def fullUnits : ℕ := 7205759403792794 * (256 * one)

theorem grain_dvd_fullUnits : grain fullUnits ∣ fullUnits := by
  rw [fullUnits, ← Nat.mul_assoc]
  exact grain_dvd_mul_one (m := 7205759403792794) (n := 8) (by decide) (by decide)

theorem grain_of_full {word : ℕ} (hlow : 2 ^ 60 ≤ word) (hhigh : word < 2 ^ 61) :
    grain (word * one) = 256 * one := by
  obtain ⟨e, -, he, -, hone, -⟩ := exists_exponents
  have hlow' : 2 ^ 60 * one ≤ word * one := Nat.mul_le_mul_right _ hlow
  have hhigh' : word * one < 2 ^ 61 * one := Nat.mul_lt_mul_of_pos_right hhigh one_pos
  have hpos := Nat.mul_pos (Nat.lt_of_lt_of_le (by decide) hlow) one_pos
  have hlog : (word * one).log2 = 60 + e := by
    have hnext : 60 + e + 1 = 61 + e := by omega
    rw [Nat.log2_eq_iff hpos.ne', hnext, Nat.pow_add, Nat.pow_add _ 61, ← hone]
    exact ⟨hlow', hhigh'⟩
  have hexponent : 60 + e - 52 = 8 + e := by omega
  rw [grain, hlog, hexponent, Nat.pow_add, ← hone]

theorem fullUnits_le {word : ℕ} (hfull : 2 ^ 64 ≤ word * 10 + 9) (hx : ofNat? word = some x) :
    fullUnits ≤ x.units := by
  rw [(ofQuotient?_eq_some hx).2]
  by_cases hhigh : word < 2 ^ 61
  · -- the least word is more than half way to the next double
    have hgrain := grain_of_full (by omega) hhigh
    unfold roundUnits fullUnits
    rw [Nat.div_one, hgrain, Nat.one_mul]
    refine Nat.mul_le_mul_right _ (le_divideToEven_of_lt (Nat.mul_pos (by decide) one_pos) ?_)
    have hpos := one_pos
    generalize one = u at *
    have hword : 1844674407370955161 * u ≤ word * u := Nat.mul_le_mul_right _ (by omega)
    omega
  · refine le_roundUnits grain_dvd_fullUnits ?_
    rw [Nat.div_one]
    have hle : fullUnits ≤ 2 ^ 61 * one := by
      rw [fullUnits, ← Nat.mul_assoc]
      exact Nat.mul_le_mul_right _ (by decide)
    exact Nat.le_trans hle (Nat.mul_le_mul_right _ (by omega))

/-- **A number that is too long for a word** does not become one by rounding. -/
theorem le_units_of_scaleByTen {word : ℕ} (hfull : 2 ^ 64 ≤ word * 10 + 9) (hn : 1 ≤ n)
    (hx : ofNat? word = some x) (h : x.scaleByTen? (.ofNat n) = some y) :
    2 ^ 64 * one ≤ y.units := by
  have hunits := fullUnits_le hfull hx
  rw [scaleByTen?] at h
  split at h
  · rename_i hzero
    have hword := (isZero_iff hx).mp hzero
    omega
  split at h
  · obtain ⟨p, hp, hy⟩ := Option.bind_eq_some_iff.mp h
    have hten : 10 * one ≤ p.units := by
      rw [(ofQuotient?_eq_some hp).2]
      refine le_roundUnits (grain_dvd_mul_one (m := 10) (n := 0) (by decide) (by decide)) ?_
      rw [Nat.div_one]
      refine Nat.mul_le_mul_right _ ?_
      exact Nat.le_trans (by decide) (Nat.pow_le_pow_right (by decide) hn)
    rw [(ofQuotient?_eq_some hy).2]
    refine le_roundUnits (grain_dvd_mul_one (m := 1) (n := 64) (by decide) (by decide)) ?_
    rw [Nat.le_div_iff_mul_le (Nat.mul_pos one_pos one_pos)]
    have hproduct := Nat.mul_le_mul hunits hten
    have hfull : 2 ^ 64 * one * one ≤ fullUnits * (10 * one) := by
      have hwords : 2 ^ 64 ≤ 7205759403792794 * 256 * 10 := by decide
      calc 2 ^ 64 * one * one = 2 ^ 64 * (one * one) := Nat.mul_assoc _ _ _
        _ ≤ 7205759403792794 * 256 * 10 * (one * one) := Nat.mul_le_mul_right _ hwords
        _ = fullUnits * (10 * one) := by
          rw [fullUnits]
          generalize one = u
          ring
    calc 2 ^ 64 * one * (one * one) = 2 ^ 64 * one * one * one := by rw [Nat.mul_assoc _ one one]
      _ ≤ x.units * p.units * one := Nat.mul_le_mul_right _ (Nat.le_trans hfull hproduct)
  · cases h

end Long

end ClusterAccess.Double
