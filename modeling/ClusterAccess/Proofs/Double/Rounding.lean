import ClusterAccess.Double.Basic
import Mathlib.Tactic.Linarith
import Mathlib.Tactic.Positivity
import Mathlib.Tactic.NormNum
import Mathlib.Tactic.FieldSimp
import Mathlib.Tactic.Ring
import Mathlib.Tactic.GCongr
import Mathlib.Data.Nat.Cast.Order.Field
import Mathlib.Data.Rat.Cast.Order

/-!
# How far rounding goes

Rounding changes a magnitude by at most one part in 2^53, or by half a unit where magnitudes are so
small that the units are coarser than that.  `Near k t x q` says that `x` and `q` are `k` roundings
apart, up to `t`.  It is kept by products and quotients, the roundings adding up, so that what a
computation comes to is told by counting its steps.
-/

namespace ClusterAccess.Double

/-! ## Nearness -/

/-- What is left at least of a magnitude that is rounded once. -/
def shrink : ℚ := 1 - 1 / 2 ^ 53

theorem shrink_pos : 0 < shrink := by norm_num [shrink]

theorem shrink_le_one : shrink ≤ 1 := by norm_num [shrink]

theorem shrink_pow_pos (k : ℕ) : 0 < shrink ^ k := pow_pos shrink_pos k

theorem shrink_pow_le_one (k : ℕ) : shrink ^ k ≤ 1 := pow_le_one₀ shrink_pos.le shrink_le_one

/-- Two magnitudes of which each is at least the other one rounded `k` times, up to `t`. -/
structure Near (k : ℕ) (t x q : ℚ) : Prop where
  le : x * shrink ^ k ≤ q + t
  ge : q * shrink ^ k ≤ x + t

namespace Near

variable {j k : ℕ} {s t x y z p q : ℚ}

theorem symm (h : Near k t x q) : Near k t q x := ⟨h.ge, h.le⟩

theorem refl (x : ℚ) : Near 0 0 x x := by
  constructor <;> simp

theorem trans (hxy : Near j s x y) (hyz : Near k t y z) (hs : 0 ≤ s) (ht : 0 ≤ t) :
    Near (j + k) (s + t) x z := by
  -- the error of the first step shrinks in the second one
  have hmul {a b c : ℚ} {m n : ℕ} {u v : ℚ} (hu : 0 ≤ u) (hab : a * shrink ^ m ≤ b + u)
      (hbc : b * shrink ^ n ≤ c + v) : a * shrink ^ (m + n) ≤ c + (u + v) := by
    have hstep := mul_le_mul_of_nonneg_right hab (shrink_pow_pos n).le
    have hless := mul_le_of_le_one_right hu (shrink_pow_le_one n)
    calc a * shrink ^ (m + n) = a * shrink ^ m * shrink ^ n := by rw [pow_add, mul_assoc]
      _ ≤ b * shrink ^ n + u * shrink ^ n := by rw [← add_mul]; exact hstep
      _ ≤ c + (u + v) := by linarith
  refine ⟨hmul hs hxy.le hyz.le, ?_⟩
  rw [add_comm j k, add_comm s t]
  exact hmul ht hyz.ge hxy.ge

theorem weaken (h : Near j s x q) (hx : 0 ≤ x) (hq : 0 ≤ q) (hjk : j ≤ k) (hst : s ≤ t) :
    Near k t x q := by
  have hpow : shrink ^ k ≤ shrink ^ j := pow_le_pow_of_le_one shrink_pos.le shrink_le_one hjk
  constructor
  · linarith [h.le, mul_le_mul_of_nonneg_left hpow hx]
  · linarith [h.ge, mul_le_mul_of_nonneg_left hpow hq]

/-- The roundings of two factors add up. -/
theorem mul (hxy : Near j 0 x y) (hpq : Near k 0 p q) (hx : 0 ≤ x) (hy : 0 ≤ y) (hp : 0 ≤ p)
    (hq : 0 ≤ q) : Near (j + k) 0 (x * p) (y * q) := by
  have hmul {a b c d : ℚ} {m n : ℕ} (hb : 0 ≤ b) (hc : 0 ≤ c) (hab : a * shrink ^ m ≤ b + 0)
      (hcd : c * shrink ^ n ≤ d + 0) : a * c * shrink ^ (m + n) ≤ b * d + 0 := by
    rw [add_zero] at hab hcd ⊢
    calc a * c * shrink ^ (m + n) = (a * shrink ^ m) * (c * shrink ^ n) := by rw [pow_add]; ring
      _ ≤ b * d := mul_le_mul hab hcd (mul_nonneg hc (shrink_pow_pos n).le) hb
  exact ⟨hmul hy hp hxy.le hpq.le, hmul hx hq hxy.ge hpq.ge⟩

/-- The roundings of a quotient's parts add up; dividing does not let an error grow. -/
theorem div (hxy : Near j t x y) (hpq : Near k 0 p q) (hx : 0 ≤ x) (hy : 0 ≤ y) (hp : 1 ≤ p)
    (hq : 1 ≤ q) (ht : 0 ≤ t) : Near (j + k) t (x / p) (y / q) := by
  have hdiv {a b c d : ℚ} {m n : ℕ} (hc : 1 ≤ c) (hd : 1 ≤ d) (hb : 0 ≤ b)
      (hab : a * shrink ^ m ≤ b + t) (hdc : d * shrink ^ n ≤ c + 0) :
      a / c * shrink ^ (m + n) ≤ b / d + t := by
    have hc' : 0 < c := by linarith
    have hd' : 0 < d := by linarith
    have hratio : shrink ^ n / c ≤ 1 / d := by
      rw [div_le_div_iff₀ hc' hd']
      linarith
    have hone : 1 / d ≤ 1 := (div_le_one hd').mpr hd
    calc a / c * shrink ^ (m + n) = a * shrink ^ m * (shrink ^ n / c) := by rw [pow_add]; ring
      _ ≤ (b + t) * (shrink ^ n / c) :=
        mul_le_mul_of_nonneg_right hab (div_nonneg (shrink_pow_pos n).le hc'.le)
      _ ≤ (b + t) * (1 / d) := mul_le_mul_of_nonneg_left hratio (add_nonneg hb ht)
      _ ≤ b / d + t := by
        rw [add_mul, mul_one_div]
        linarith [mul_le_mul_of_nonneg_left hone ht]
  exact ⟨hdiv hp hq hy hxy.le hpq.ge, hdiv hq hp hx hxy.ge hpq.le⟩

/-- A few roundings are at most one part in 2^50. -/
theorem abs_sub_le (h : Near 6 t x q) (hq : 0 ≤ q) (ht : 0 ≤ t) :
    |x - q| ≤ q / 2 ^ 50 + 2 * t := by
  have hshrink : 1 - 1 / 2 ^ 50 ≤ shrink ^ 6 := by norm_num [shrink]
  have hgrow : 1 ≤ shrink ^ 6 * (1 + 1 / 2 ^ 50) := by norm_num [shrink]
  rw [abs_le]
  constructor
  · linarith [h.ge, mul_le_mul_of_nonneg_left hshrink hq]
  · by_cases hx : 0 ≤ x
    · have hle := mul_le_mul_of_nonneg_right h.le (by norm_num : (0 : ℚ) ≤ 1 + 1 / 2 ^ 50)
      linarith [mul_le_mul_of_nonneg_left hgrow hx]
    · linarith [div_nonneg hq (by norm_num : (0 : ℚ) ≤ 2 ^ 50)]

end Near

/-! ## Rounding to units -/

section Units

variable {num den : ℕ}

/-- The nearest whole number is at most a half away. -/
theorem divideToEven_error (num : ℕ) (hden : 0 < den) :
    2 * num ≤ 2 * (divideToEven num den * den) + den ∧
      2 * (divideToEven num den * den) ≤ 2 * num + den := by
  have hdivide := Nat.div_add_mod num den
  have hrest := Nat.mod_lt num hden
  unfold divideToEven
  generalize num / den = quotient at *
  generalize num % den = rest at *
  dsimp only
  split
  · rw [Nat.mul_comm quotient den]
    omega
  · split
    · rw [Nat.add_mul, Nat.mul_comm quotient den]
      omega
    · have hparity : quotient % 2 = 0 ∨ quotient % 2 = 1 := by omega
      rcases hparity with hparity | hparity <;>
        rw [hparity, Nat.add_mul, Nat.mul_comm quotient den] <;> omega

theorem le_divideToEven (num den : ℕ) : num / den ≤ divideToEven num den := by
  unfold divideToEven
  dsimp only
  split
  · exact Nat.le_refl _
  · split <;> omega

/-- The nearest whole number is not below one that is less than a half above. -/
theorem le_divideToEven_of_lt {m : ℕ} (hden : 0 < den) (h : 2 * (m * den) < 2 * num + den) :
    m ≤ divideToEven num den := by
  have herror := (divideToEven_error num hden).1
  by_contra hlt
  have hle : (divideToEven num den + 1) * den ≤ m * den := Nat.mul_le_mul_right _ (by omega)
  rw [Nat.add_mul, Nat.one_mul] at hle
  omega

theorem grain_pos (units : ℕ) : 0 < grain units := Nat.two_pow_pos _

/-- A multiple of the grain that is not above a quotient is not above the rounded quotient. -/
theorem le_roundUnits_of_dvd {units : ℕ} (hdvd : grain (num / den) ∣ units)
    (hle : units ≤ num / den) : units ≤ roundUnits num den := by
  have hgrain := grain_pos (num / den)
  calc units = units / grain (num / den) * grain (num / den) := (Nat.div_mul_cancel hdvd).symm
    _ ≤ num / den / grain (num / den) * grain (num / den) :=
      Nat.mul_le_mul_right _ (Nat.div_le_div_right hle)
    _ = num / (den * grain (num / den)) * grain (num / den) := by rw [Nat.div_div_eq_div_mul]
    _ ≤ roundUnits num den := Nat.mul_le_mul_right _ (le_divideToEven _ _)

/-- A quotient is not rounded below any magnitude of the format. -/
theorem le_roundUnits {units : ℕ} (hunits : grain units ∣ units) (hle : units ≤ num / den) :
    units ≤ roundUnits num den := by
  by_cases hzero : units = 0
  · rw [hzero]
    exact Nat.zero_le _
  have hne : num / den ≠ 0 := by omega
  have hlog : units.log2 ≤ (num / den).log2 :=
    (Nat.le_log2 hne).mpr (Nat.le_trans (Nat.log2_self_le hzero) hle)
  -- either both have the same grain, or there is a power of two between them
  rcases Nat.eq_or_lt_of_le hlog with hlog | hlog
  · refine le_roundUnits_of_dvd ?_ hle
    rwa [grain, ← hlog]
  · have hpower : units ≤ 2 ^ (num / den).log2 := by
      refine Nat.le_of_lt (Nat.lt_of_lt_of_le Nat.lt_log2_self ?_)
      exact Nat.pow_le_pow_right (by decide) hlog
    refine Nat.le_trans hpower (le_roundUnits_of_dvd ?_ (Nat.log2_self_le hne))
    exact Nat.pow_dvd_pow 2 (Nat.sub_le _ _)

/-- Rounding to units goes as far as half a grain. -/
theorem roundUnits_error (num : ℕ) (hden : 0 < den) :
    |(roundUnits num den : ℚ) - num / den| ≤ grain (num / den) / 2 := by
  have hgrain := grain_pos (num / den)
  obtain ⟨hlow, hhigh⟩ := divideToEven_error num (Nat.mul_pos hden hgrain)
  unfold roundUnits
  generalize grain (num / den) = g at *
  generalize divideToEven num (den * g) = m at *
  have hden' : (0 : ℚ) < den := by exact_mod_cast hden
  have hlow' : (2 * num : ℚ) ≤ 2 * (m * (den * g)) + den * g := by exact_mod_cast hlow
  have hhigh' : (2 * (m * (den * g)) : ℚ) ≤ 2 * num + den * g := by exact_mod_cast hhigh
  have hsplit : (num : ℚ) = num / den * den := (div_mul_cancel₀ _ hden'.ne').symm
  generalize (num : ℚ) / den = q at *
  rw [hsplit] at hlow' hhigh'
  have hlow : (q - g / 2) * den ≤ m * g * den := by linarith
  have hhigh : m * g * den ≤ (q + g / 2) * den := by linarith
  push_cast
  rw [abs_le]
  constructor
  · linarith [le_of_mul_le_mul_right hlow hden']
  · linarith [le_of_mul_le_mul_right hhigh hden']

/-- Half a grain of a magnitude that is not small is one part in 2^53 of it. -/
theorem grain_le_of_large {units : ℕ} (hlarge : 2 ^ 52 ≤ units) :
    (grain units : ℚ) / 2 ≤ units / 2 ^ 53 := by
  have hne : units ≠ 0 := by omega
  have hlog : 52 ≤ units.log2 := (Nat.le_log2 hne).mpr hlarge
  have hgrain : grain units * 2 ^ 52 ≤ units := by
    rw [grain, ← Nat.pow_add, Nat.sub_add_cancel hlog]
    exact Nat.log2_self_le hne
  have hgrain' : (grain units : ℚ) * 2 ^ 52 ≤ units := by exact_mod_cast hgrain
  rw [div_le_div_iff₀ (by norm_num) (by norm_num)]
  linarith

theorem grain_of_small {units : ℕ} (hsmall : units < 2 ^ 53) : grain units = 1 := by
  have hlog : units.log2 - 52 = 0 := by
    by_cases hne : units = 0
    · rw [hne]
      rfl
    · have hlt := (Nat.log2_lt hne).mpr hsmall
      omega
  rw [grain, hlog]

/-- A change by one part in 2^53 is one rounding. -/
theorem near_one_of_abs_sub_le {x q t : ℚ} (hq : 0 ≤ q) (ht : 0 ≤ t)
    (h : |x - q| ≤ q / 2 ^ 53 + t) : Near 1 t x q := by
  obtain ⟨hlow, hhigh⟩ := abs_le.mp h
  have hshrink : shrink * (1 + 1 / 2 ^ 53) ≤ 1 := by norm_num [shrink]
  constructor
  · rw [pow_one]
    calc x * shrink ≤ (q * (1 + 1 / 2 ^ 53) + t) * shrink :=
        mul_le_mul_of_nonneg_right (by linarith) shrink_pos.le
      _ = q * (shrink * (1 + 1 / 2 ^ 53)) + t * shrink := by ring
      _ ≤ q * 1 + t * 1 := add_le_add (mul_le_mul_of_nonneg_left hshrink hq)
        (mul_le_mul_of_nonneg_left shrink_le_one ht)
      _ = q + t := by ring
  · rw [pow_one, shrink]
    linarith

/-- A magnitude of at least 2^52 units is rounded by one part in 2^53. -/
theorem near_roundUnits_of_large (hden : 0 < den) (hlarge : 2 ^ 52 ≤ num / den) :
    Near 1 0 (roundUnits num den) ((num : ℚ) / den) := by
  have hfloor : ((num / den : ℕ) : ℚ) ≤ num / den := Nat.cast_div_le
  refine near_one_of_abs_sub_le (by positivity) le_rfl ?_
  calc |(roundUnits num den : ℚ) - num / den| ≤ grain (num / den) / 2 := roundUnits_error num hden
    _ ≤ (num / den : ℕ) / 2 ^ 53 := grain_le_of_large hlarge
    _ ≤ (num : ℚ) / den / 2 ^ 53 + 0 := by
      rw [add_zero]
      exact div_le_div_of_nonneg_right hfloor (by norm_num)

/-- **Rounding to units** is one rounding, up to half a unit. -/
theorem near_roundUnits (num : ℕ) (hden : 0 < den) :
    Near 1 (1 / 2) (roundUnits num den) ((num : ℚ) / den) := by
  have hq : (0 : ℚ) ≤ num / den := by positivity
  by_cases hlarge : 2 ^ 52 ≤ num / den
  · exact (near_roundUnits_of_large hden hlarge).weaken (by positivity) hq le_rfl (by norm_num)
  · have herror := roundUnits_error num hden
    rw [grain_of_small (by omega), Nat.cast_one] at herror
    refine near_one_of_abs_sub_le hq (by norm_num) (herror.trans ?_)
    exact le_add_of_nonneg_left (by positivity)

end Units

/-! ## Doubles -/

/-- The powers of two of the format, with exponents that nobody is tempted to compute with. -/
theorem exists_exponents : ∃ e f, e = 1074 ∧ f = 2098 ∧ one = 2 ^ e ∧ limit = 2 ^ f :=
  ⟨1074, 2098, rfl, rfl, by rw [one], by rw [limit]⟩

theorem one_pos : 0 < one := by
  obtain ⟨e, -, -, -, hone, -⟩ := exists_exponents
  rw [hone]
  exact Nat.two_pow_pos e

theorem two_pow_le_one {n : ℕ} (h : n ≤ 1074) : 2 ^ n ≤ one := by
  obtain ⟨e, -, he, -, hone, -⟩ := exists_exponents
  rw [hone]
  exact Nat.pow_le_pow_right (by decide) (by omega)

theorem limit_eq {n : ℕ} (h : n = 1024) : limit = 2 ^ n * one := by
  obtain ⟨e, f, he, hf, hone, hlimit⟩ := exists_exponents
  have hsum : f = n + e := by omega
  rw [hone, hlimit, hsum, Nat.pow_add]

theorem le_limit : 2 ^ 129 * one ≤ limit := by
  obtain ⟨n, hn⟩ : ∃ n, n = 1024 := ⟨_, rfl⟩
  rw [limit_eq hn]
  exact Nat.mul_le_mul_right _ (Nat.pow_le_pow_right (by decide) (by omega))

/-- What has at most 53 bits, and any number of zeros behind them, is a whole number of grains. -/
theorem grain_dvd_mul_one {k m n : ℕ} (hm : m ≤ 2 ^ 53) (hk : k = m * 2 ^ n) :
    grain (k * one) ∣ k * one := by
  obtain ⟨e, -, -, -, hone, -⟩ := exists_exponents
  rw [hone, hk, Nat.mul_assoc, ← Nat.pow_add]
  exact grain_dvd_of_le hm

theorem grain_dvd_one : grain one ∣ one := by
  obtain ⟨e, -, -, -, hone, -⟩ := exists_exponents
  have hdvd := grain_dvd_of_le (m := 1) (t := e) (by decide)
  rwa [Nat.one_mul, ← hone] at hdvd

theorem cast_one_pos : (0 : ℚ) < one := Nat.cast_pos.mpr one_pos

/-- A double without its sign. -/
def magnitude (x : Double) : ℚ := x.units / one

theorem magnitude_nonneg (x : Double) : 0 ≤ x.magnitude :=
  div_nonneg (Nat.cast_nonneg _) (Nat.cast_nonneg _)

/-- Half of the least positive magnitude. -/
def halfUnit : ℚ := 1 / 2 / one

theorem halfUnit_pos : 0 < halfUnit := div_pos (by norm_num) cast_one_pos

theorem halfUnit_le_half : halfUnit ≤ 1 / 2 := by
  have hone : (1 : ℚ) ≤ one := Nat.one_le_cast.mpr one_pos
  exact div_le_self (by norm_num) hone

/-- Units, measured by one. -/
theorem Near.of_units {k : ℕ} {t x q : ℚ} (h : Near k t x q) :
    Near k (t / one) (x / one) (q / one) := by
  have hdiv {a b : ℚ} (hab : a * shrink ^ k ≤ b + t) :
      a / one * shrink ^ k ≤ b / one + t / one := by
    rw [div_mul_eq_mul_div, ← add_div]
    exact div_le_div_of_nonneg_right hab cast_one_pos.le
  exact ⟨hdiv h.le, hdiv h.ge⟩

section Quotients

variable {negative : Bool} {num den n : ℕ} {x y z : Double}

theorem ofQuotient?_eq_some (h : ofQuotient? negative num den = some x) :
    x.negative = negative ∧ x.units = roundUnits (num * one) den := by
  unfold ofQuotient? at h
  split at h
  · cases h
    exact ⟨rfl, rfl⟩
  · cases h

theorem cast_mul_one_div : ((num * one : ℕ) : ℚ) / den / one = num / den := by
  rw [Nat.cast_mul, div_right_comm, mul_div_cancel_right₀ _ cast_one_pos.ne']

/-- A quotient is rounded once, up to half of the least magnitude. -/
theorem near_of_ofQuotient (hden : 0 < den) (h : ofQuotient? negative num den = some x) :
    Near 1 halfUnit x.magnitude (num / den) := by
  have hnear := (near_roundUnits (num * one) hden).of_units
  rwa [cast_mul_one_div, ← (ofQuotient?_eq_some h).2] at hnear

/-- A quotient that is not below one is rounded once. -/
theorem near_of_ofQuotient_of_le (hden : 0 < den) (hle : den ≤ num)
    (h : ofQuotient? negative num den = some x) : Near 1 0 x.magnitude (num / den) := by
  have hlarge : 2 ^ 52 ≤ num * one / den := by
    rw [Nat.le_div_iff_mul_le hden, Nat.mul_comm]
    exact Nat.mul_le_mul hle (two_pow_le_one (by decide))
  have hnear := (near_roundUnits_of_large hden hlarge).of_units
  rwa [zero_div, cast_mul_one_div, ← (ofQuotient?_eq_some h).2] at hnear

theorem limit_le_of_ofQuotient_eq_none (h : ofQuotient? negative num den = none) :
    limit ≤ roundUnits (num * one) den := by
  unfold ofQuotient? at h
  split at h
  · cases h
  · omega

/-- A quotient that is no double is far beyond all words. -/
theorem le_of_ofQuotient_eq_none (hden : 0 < den) (h : ofQuotient? negative num den = none) :
    (2 : ℚ) ^ 128 ≤ num / den := by
  have hlimit : 2 ^ 129 * one ≤ roundUnits (num * one) den :=
    Nat.le_trans le_limit (limit_le_of_ofQuotient_eq_none h)
  have hunits : (2 : ℚ) ^ 129 ≤ roundUnits (num * one) den / one := by
    have hcast : ((2 ^ 129 * one : ℕ) : ℚ) ≤ roundUnits (num * one) den := Nat.cast_le.mpr hlimit
    rw [le_div_iff₀ cast_one_pos]
    rwa [Nat.cast_mul, Nat.cast_pow, Nat.cast_ofNat] at hcast
  have hnear := (near_roundUnits (num * one) hden).of_units.le
  rw [cast_mul_one_div, pow_one, ← halfUnit] at hnear
  have hshrink : 3 / 4 ≤ shrink := by norm_num [shrink]
  have hle := mul_le_mul hunits hshrink (by norm_num) (le_trans (by norm_num) hunits)
  linarith [halfUnit_le_half]

/-! ### Naturals -/

theorem one_le_units (hn : 1 ≤ n) (h : ofNat? n = some x) : one ≤ x.units := by
  rw [(ofQuotient?_eq_some h).2]
  refine le_roundUnits grain_dvd_one ?_
  rw [Nat.div_one]
  exact Nat.le_mul_of_pos_left one hn

/-- A natural is rounded once. -/
theorem near_of_ofNat (h : ofNat? n = some x) : Near 1 0 x.magnitude n := by
  rcases Nat.eq_zero_or_pos n with rfl | hn
  · have hzero : x.units = 0 := by
      rw [(ofQuotient?_eq_some h).2]
      simp [roundUnits, divideToEven]
    rw [magnitude, hzero, Nat.cast_zero, zero_div]
    exact (Near.refl 0).weaken le_rfl le_rfl (Nat.zero_le 1) le_rfl
  · have hnear := near_of_ofQuotient_of_le Nat.one_pos hn h
    rwa [Nat.cast_one, div_one] at hnear

theorem one_le_magnitude (hn : 1 ≤ n) (h : ofNat? n = some x) : 1 ≤ x.magnitude := by
  rw [magnitude, one_le_div₀ cast_one_pos]
  exact Nat.cast_le.mpr (one_le_units hn h)

/-! ### Products and quotients of doubles -/

/-- The product of doubles that are not below one is rounded once. -/
theorem near_of_mul (hx : one ≤ x.units) (hy : one ≤ y.units) (h : x.mul? y = some z) :
    Near 1 0 z.magnitude (x.magnitude * y.magnitude) := by
  have hnear := near_of_ofQuotient_of_le (Nat.mul_pos one_pos one_pos) (Nat.mul_le_mul hx hy) h
  rwa [Nat.cast_mul, Nat.cast_mul, mul_div_mul_comm] at hnear

theorem le_of_mul_eq_none (h : x.mul? y = none) :
    (2 : ℚ) ^ 128 ≤ x.magnitude * y.magnitude := by
  have hle := le_of_ofQuotient_eq_none (Nat.mul_pos one_pos one_pos) h
  rwa [Nat.cast_mul, Nat.cast_mul, mul_div_mul_comm] at hle

theorem cast_units_div : (x.units : ℚ) / y.units = x.magnitude / y.magnitude := by
  rw [magnitude, magnitude, div_div_div_cancel_right₀ cast_one_pos.ne']

/-- A quotient of doubles is rounded once, up to half of the least magnitude. -/
theorem near_of_div (hy : one ≤ y.units) (h : x.div? y = some z) :
    Near 1 halfUnit z.magnitude (x.magnitude / y.magnitude) := by
  rw [← cast_units_div]
  exact near_of_ofQuotient (Nat.lt_of_lt_of_le one_pos hy) h

theorem le_of_div_eq_none (hy : one ≤ y.units) (h : x.div? y = none) :
    (2 : ℚ) ^ 128 ≤ x.magnitude / y.magnitude := by
  rw [← cast_units_div]
  exact le_of_ofQuotient_eq_none (Nat.lt_of_lt_of_le one_pos hy) h

end Quotients

end ClusterAccess.Double
