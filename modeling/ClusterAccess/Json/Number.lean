import ClusterAccess.Double.Shortest
/-!
# JSON numbers

A number literal is kept as its digits until it is decided what it stands for: a word of 64 bits
without sign, a negative one, or a double.  A literal without fraction and exponent that fits a
word is that word; every other literal is a double, and so is `-0`.

The double of a literal is not always the nearest one.  Its digits are taken into one word as long
as they fit; whole digits that do not fit count as powers of ten, and digits of the fraction that
do not fit count for nothing.  The word is rounded to a double and then scaled by the power of ten.
-/

namespace ClusterAccess.Json

/-- What a number literal stands for. -/
inductive Number where
  | natural (n : UInt64)
  /-- A negative integer, by its magnitude: from 1 to 2^63. -/
  | negative (magnitude : UInt64)
  | double (x : Double)
deriving DecidableEq

namespace Number

/-- Doubles from 10^-5 up to, not including, 10^16 are written out; the others have an exponent. -/
def layout : Decimal.Layout := ⟨-5, 15⟩

def write : Number → List Char
  | .natural n => (toString n).toList
  | .negative magnitude => '-' :: (toString magnitude).toList
  | .double x => x.render layout

/-- The word that a number is, if it is written as one: `1.0` is none. -/
def word? : Number → Option UInt64
  | .natural n => some n
  | _ => none

end Number

/-! ## Literals -/

abbrev Digit := Fin 10

/-- The parts of a number literal: sign, digits before and after the point, and the exponent with
whether it is negative.  An empty fraction means that there is no point. -/
structure Literal where
  negative : Bool
  whole : List Digit
  fraction : List Digit
  exponent : Option (Bool × List Digit)
deriving DecidableEq

namespace Literal

/-- Takes digits into a number as long as it stays below a limit; answers the number and the
digits that are left. -/
def takeBelow (limit : Nat) : (taken : Nat) → List Digit → Nat × List Digit
  | taken, [] => (taken, [])
  | taken, digit :: rest =>
    if taken * 10 + digit.val < limit then takeBelow limit (taken * 10 + digit.val) rest
    else (taken, digit :: rest)

/-- The number that a list of digits is. -/
def ofDigits (digits : List Digit) : Nat := digits.foldl (fun n digit => n * 10 + digit.val) 0

/-- The exponent of a literal, zero if it has none. -/
def power (l : Literal) : Int :=
  match l.exponent with
  | none => 0
  | some (true, digits) => -(ofDigits digits : Int)
  | some (false, digits) => (ofDigits digits : Int)

/-- The double of a literal; `none` when it is too large. -/
def double? (l : Literal) : Option Double := do
  let (word, wholeLeft) := takeBelow (2 ^ 64) 0 l.whole
  let (word, fractionLeft) := takeBelow (2 ^ 64) word l.fraction
  let used : Int := (l.fraction.length : Int) - fractionLeft.length
  let x ← Double.ofNat? word
  let y ← x.scaleByTen? (wholeLeft.length - used + l.power)
  return { y with negative := l.negative }

/-- The word of a literal without fraction and exponent, if its digits fit. -/
def word? (l : Literal) : Option Nat :=
  match l.fraction, l.exponent, takeBelow (2 ^ 64) 0 l.whole with
  | [], none, (word, []) => some word
  | _, _, _ => none

/-- What a literal stands for; `none` when it is too large for every kind of number. -/
def number? (l : Literal) : Option Number :=
  match l.word?, l.negative with
  | some word, false => some (.natural (.ofNat word))
  | some word, true =>
    if 0 < word ∧ word ≤ 2 ^ 63 then some (.negative (.ofNat word)) else l.double?.map .double
  | none, _ => l.double?.map .double

/-- The digits of a too large literal that a reader has not looked at when it gives up: those
after the one that takes the exponent beyond 31 bits. -/
def unread (l : Literal) : List Digit :=
  match l.exponent with
  | some (_, digits) => (takeBelow (2 ^ 31) 0 digits).2.tail
  | none => []

end Literal

end ClusterAccess.Json
