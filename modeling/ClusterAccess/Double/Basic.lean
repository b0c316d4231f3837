/-!
# Finite doubles

The finite numbers of the 64-bit binary floating-point format, exactly.  Every such number is a
whole multiple of the smallest positive one, 2^-1074, so its magnitude is kept as that multiple:
order is order of naturals, and a number is whole when its multiple is divisible by 2^1074.

Rounding is to the nearest representable number, a tie going to the one whose last bit is zero.
A result too large for the format is no double: the operations answer `none`.
-/

-- Powers of naturals are those that compute by themselves, whatever other powers are imported.
attribute [instance (20000), default_instance 20000] instPowNat

namespace ClusterAccess

namespace Double

/-- The number of units, of size 2^-1074 each, in one. -/
def one : Nat := 2 ^ 1074

/-- The least magnitude, in units, that is too large for the format: 2^1024. -/
def limit : Nat := 2 ^ 2098

/-- The distance, in units, between neighbouring doubles at a magnitude: 53 bits are kept. -/
def grain (units : Nat) : Nat := 2 ^ (units.log2 - 52)

/-- A magnitude that the format holds exactly. -/
def IsMagnitude (units : Nat) : Prop := units < limit ∧ grain units ∣ units

end Double

/-- A finite double: a sign and a magnitude in units of 2^-1074.  Zero has both signs. -/
structure Double where
  negative : Bool
  units : Nat
  isMagnitude : Double.IsMagnitude units

namespace Double

theorem ext {x y : Double} (hsign : x.negative = y.negative) (hunits : x.units = y.units) :
    x = y := by
  cases x; cases y; cases hsign; cases hunits; rfl

instance : DecidableEq Double := fun x y =>
  if h : x.negative = y.negative ∧ x.units = y.units then isTrue (ext h.1 h.2)
  else isFalse fun e => h ⟨congrArg negative e, congrArg units e⟩

/-! ## Rounding -/

/-- The quotient to the nearest whole number, a tie going to the even one. -/
def divideToEven (num den : Nat) : Nat :=
  let quotient := num / den
  let twice := 2 * (num % den)
  if twice < den then quotient
  else if den < twice then quotient + 1
  else quotient + quotient % 2

theorem divideToEven_le (num den : Nat) : divideToEven num den ≤ num / den + 1 := by
  simp only [divideToEven]
  split
  · omega
  · split <;> omega

/-- The units to which a quotient is rounded, before the format's limit is looked at. -/
def roundUnits (num den : Nat) : Nat :=
  divideToEven num (den * grain (num / den)) * grain (num / den)

/-- A multiple of a power of two is spaced correctly when it has at most 53 bits. -/
theorem grain_dvd_of_le {m t : Nat} (h : m ≤ 2 ^ 53) : grain (m * 2 ^ t) ∣ m * 2 ^ t := by
  rcases Nat.eq_zero_or_pos m with rfl | hpos
  · simp
  rcases Nat.lt_or_eq_of_le h with hlt | rfl
  · have hne : m * 2 ^ t ≠ 0 := Nat.ne_of_gt (Nat.mul_pos hpos (Nat.two_pow_pos t))
    have : (m * 2 ^ t).log2 < 53 + t := by
      rw [Nat.log2_lt hne, Nat.pow_add]
      exact Nat.mul_lt_mul_of_pos_right hlt (Nat.two_pow_pos t)
    exact Nat.dvd_trans (Nat.pow_dvd_pow 2 (by omega)) (Nat.dvd_mul_left _ _)
  · rw [← Nat.pow_add, grain, Nat.log2_two_pow]
    exact Nat.pow_dvd_pow 2 (by omega)

theorem grain_dvd_roundUnits (num den : Nat) : grain (roundUnits num den) ∣ roundUnits num den := by
  apply grain_dvd_of_le
  refine Nat.le_trans (divideToEven_le _ _) (Nat.succ_le_of_lt ?_)
  rw [← Nat.div_div_eq_div_mul, grain, Nat.div_lt_iff_lt_mul (Nat.two_pow_pos _), ← Nat.pow_add]
  refine Nat.lt_of_lt_of_le Nat.lt_log2_self (Nat.pow_le_pow_right (by decide) ?_)
  omega

/-- The double nearest to a quotient of naturals, with a given sign; `none` beyond the format. -/
def ofQuotient? (negative : Bool) (num den : Nat) : Option Double :=
  if h : roundUnits (num * one) den < limit then
    some ⟨negative, roundUnits (num * one) den, h, grain_dvd_roundUnits _ _⟩
  else none

/-- The double nearest to a natural. -/
def ofNat? (n : Nat) : Option Double := ofQuotient? false n 1

/-- Zero with a sign. -/
def zero (negative : Bool) : Double :=
  ⟨negative, 0, by decide +kernel, Nat.dvd_zero _⟩

def isZero (x : Double) : Bool := x.units = 0

/-! ## Products and quotients -/

/-- The product of two doubles, rounded once. -/
def mul? (x y : Double) : Option Double :=
  ofQuotient? (x.negative != y.negative) (x.units * y.units) (one * one)

/-- The quotient of two doubles, rounded once. -/
def div? (x y : Double) : Option Double :=
  ofQuotient? (x.negative != y.negative) x.units y.units

/-- The greatest power of ten of the format. -/
def greatestTenPower : Nat := 308

/-- A double below 2^64 times a power of ten, reached by one product or by quotients by the powers
of ten that the format holds, each rounded.  Two quotients by the greatest of them leave zero. -/
def scaleByTen? (x : Double) (exponent : Int) : Option Double :=
  match exponent with
  | .ofNat n =>
    if x.isZero then some x
    else if n ≤ greatestTenPower then (ofNat? (10 ^ n)).bind x.mul?
    else none
  | .negSucc m =>
    let n := m + 1
    if n ≤ greatestTenPower then (ofNat? (10 ^ n)).bind x.div?
    else if n ≤ 2 * greatestTenPower then do
      let y ← (ofNat? (10 ^ greatestTenPower)).bind x.div?
      (ofNat? (10 ^ (n - greatestTenPower))).bind y.div?
    else some (zero x.negative)

/-! ## Whole numbers -/

/-- Whether the double is a whole number. -/
def isWhole (x : Double) : Bool := x.units % one = 0

/-- The magnitude without its fraction. -/
def floor (x : Double) : Nat := x.units / one

/-- The magnitude to the nearest whole number, a half going up. -/
def roundHalfUp (x : Double) : Nat := (2 * x.units + one) / (2 * one)

/-- Whether the double is a number of 64 bits without sign, its fraction apart; negative zero is. -/
def isWord (x : Double) : Bool :=
  (!x.negative || x.isZero) && x.units < 2 ^ 64 * one

end Double

end ClusterAccess
