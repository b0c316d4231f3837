import ClusterAccess.Double.Basic
/-!
# The shortest decimal of a double

The decimal that is written for a double is the one with the fewest digits among those that are
nearer to it than to any other double; of two with equally few digits the nearer one, and of two
equally near the even one.  How the digits are laid out is a separate decision.
-/

namespace ClusterAccess

/-- A decimal `coefficient * 10 ^ exponent`. -/
structure Decimal where
  coefficient : Nat
  exponent : Int
deriving DecidableEq

namespace Decimal

def digits (d : Decimal) : List Char := Nat.toDigits 10 d.coefficient

/-- The power of ten of the first digit. -/
def leading (d : Decimal) : Int := d.exponent + (d.digits.length - 1 : Int)

/-- The same number without zeros at the end of its coefficient, which gets at most `fuel` digits
shorter. -/
def stripZeros : (fuel : Nat) → Decimal → Decimal
  | 0, d => d
  | fuel + 1, d =>
    if d.coefficient ≠ 0 ∧ d.coefficient % 10 = 0 then
      stripZeros fuel ⟨d.coefficient / 10, d.exponent + 1⟩
    else d

/-! ## Layout -/

/-- How a decimal is written: which powers of ten of the first digit are written out, everything
else having an exponent.  What is written out has at least one digit after the point. -/
structure Layout where
  leastWrittenOut : Int
  greatestWrittenOut : Int
deriving DecidableEq

private def zeros (n : Nat) : List Char := List.replicate n '0'

/-- The digits with the point among them or zeros around them. -/
def writtenOut (d : Decimal) : List Char :=
  if d.leading < 0 then
    ['0', '.'] ++ zeros (-d.leading - 1).toNat ++ d.digits
  else
    let whole := d.leading.toNat + 1
    if d.digits.length ≤ whole then
      d.digits ++ zeros (whole - d.digits.length) ++ ['.', '0']
    else d.digits.take whole ++ ['.'] ++ d.digits.drop whole

/-- One digit before the point and an exponent with its sign. -/
def withExponent (d : Decimal) : List Char :=
  let mantissa := match d.digits with
    | [digit] => [digit]
    | digit :: rest => digit :: '.' :: rest
    | [] => []
  let sign := if d.leading < 0 then '-' else '+'
  mantissa ++ 'e' :: sign :: Nat.toDigits 10 d.leading.natAbs

def render (layout : Layout) (d : Decimal) : List Char :=
  if layout.leastWrittenOut ≤ d.leading ∧ d.leading ≤ layout.greatestWrittenOut then d.writtenOut
  else d.withExponent

end Decimal

namespace Double

/-! ## Which decimals read back -/

/-- Twice the reach of a double below and above itself, in quarters of a unit: within it a number
is nearer to this double than to another.  Below a power of two the doubles are denser. -/
def reach (units : Nat) : Nat × Nat :=
  let g := grain units
  let below := if units = 2 ^ units.log2 ∧ 1 < g then g else 2 * g
  (below, 2 * g)

/-- Whether `coefficient * 10 ^ exponent` is rounded to the magnitude: it lies within reach, or at
its very end if the last bit of the magnitude is zero. -/
def readsBack (units : Nat) (d : Decimal) : Bool :=
  let (below, above) := reach units
  let even := (units / grain units) % 2 = 0
  let (num, den) := match d.exponent with
    | .ofNat n => (4 * one * d.coefficient * 10 ^ n, 1)
    | .negSucc m => (4 * one * d.coefficient, 10 ^ (m + 1))
  let low := (4 * units - below) * den
  let high := (4 * units + above) * den
  if even then low ≤ num && num ≤ high else low < num && num < high

/-- The power of ten of the first digit of a positive magnitude. -/
def leadingTen (units : Nat) : Int :=
  if one ≤ units then ((Nat.toDigits 10 (units / one)).length : Int) - 1
  else -((Nat.toDigits 10 ((one - 1) / units)).length : Int)

/-- The magnitude divided by a power of ten, as numerator and denominator. -/
def overTen (units : Nat) : Int → Nat × Nat
  | .ofNat n => (units, one * 10 ^ n)
  | .negSucc m => (units * 10 ^ (m + 1), one)

/-- The decimal with a last digit at a given power of ten that reads back, if there is one: one of
the two neighbours of the magnitude on that grid, the nearer of them if both do. -/
def onGrid? (units : Nat) (exponent : Int) : Option Decimal :=
  let (num, den) := overTen units exponent
  let below : Decimal := ⟨num / den, exponent⟩
  let above : Decimal := ⟨num / den + 1, exponent⟩
  let nearest : Decimal := ⟨divideToEven num den, exponent⟩
  match readsBack units below, readsBack units above with
  | true, true => some nearest
  | true, false => some below
  | false, true => some above
  | false, false => none

/-- The shortest decimal of a magnitude, with at most 17 digits. -/
def shortestOf (units : Nat) : Decimal :=
  if units = 0 then ⟨0, 0⟩
  else
    let found := (List.range 17).findSome? fun (n : Nat) => onGrid? units (leadingTen units - n)
    (found.getD ⟨units / one, 0⟩).stripZeros 17

/-- The shortest decimal of the double's magnitude. -/
def shortest (x : Double) : Decimal := shortestOf x.units

/-- The double's text: its sign and its shortest decimal. -/
def render (layout : Decimal.Layout) (x : Double) : List Char :=
  let text := x.shortest.render layout
  if x.negative then '-' :: text else text

end Double

end ClusterAccess
