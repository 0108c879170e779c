/-! Finite doubles as an integer times a power of two. Every operation works on natural numbers and
rounds once, to nearest and on a tie to an even significand; beyond the largest double it is `none`.
-/

namespace StackSwap

/-- The number `significand * 2 ^ exponent`, or its negation. The form is canonical when the
significand has 53 bits, or fewer with the least exponent; a zero keeps its sign. -/
structure Binary64 where
  negative : Bool
  significand : Nat
  exponent : Int
deriving DecidableEq, Repr, Inhabited

namespace Binary64

/-- Bits of a full significand. -/
def precision : Nat := 53

/-- The exponent of the smallest positive number. -/
def minExponent : Int := -1074

/-- The exponent of the largest number. -/
def maxExponent : Int := 971

def zero (negative : Bool) : Binary64 := ⟨negative, 0, minExponent⟩

/-- The integer nearest to a quotient; a half goes to the even neighbour. -/
def roundHalfEven (numerator denominator : Nat) : Nat :=
  let quotient := numerator / denominator
  let twice := 2 * (numerator % denominator)
  if twice > denominator then quotient + 1
  else if twice = denominator then quotient + quotient % 2
  else quotient

/-- The integer nearest to a quotient; a half goes away from zero. -/
def roundHalfUp (numerator denominator : Nat) : Nat :=
  (2 * numerator + denominator) / (2 * denominator)

/-- A quotient times a power of two, as a quotient. -/
def scale (numerator denominator : Nat) (power : Int) : Nat × Nat :=
  if power ≥ 0 then (numerator * Nat.pow 2 power.toNat, denominator)
  else (numerator, denominator * Nat.pow 2 (-power).toNat)

/-- The double nearest to a quotient of natural numbers, `none` when that is beyond the range. -/
def ofRatio (negative : Bool) (numerator denominator : Nat) : Option Binary64 :=
  if numerator = 0 then some (zero negative)
  else
    let guess : Int := (Nat.log2 numerator : Int) - Nat.log2 denominator - (precision - 1 : Nat)
    -- the leading bit of the quotient sits at the guess or one below it
    let (scaled, divisor) := scale numerator denominator (-guess)
    let exact := if scaled < divisor * Nat.pow 2 (precision - 1) then guess - 1 else guess
    let exponent := max minExponent exact
    let (scaled, divisor) := scale numerator denominator (-exponent)
    let rounded := roundHalfEven scaled divisor
    let (significand, exponent) :=
      if rounded = Nat.pow 2 precision then (Nat.pow 2 (precision - 1), exponent + 1) else (rounded, exponent)
    if exponent > maxExponent then none
    else if significand = 0 then some (zero negative)
    else some ⟨negative, significand, exponent⟩

/-- The magnitude as a quotient. -/
def toRatio (number : Binary64) : Nat × Nat :=
  scale number.significand 1 number.exponent

/-- The double nearest to `digits * 10 ^ exponent`. -/
def ofDecimal (negative : Bool) (digits : Nat) (exponent : Int) : Option Binary64 :=
  let magnitude : Int := (Nat.toDigits 10 digits).length + exponent
  if digits = 0 then some (zero negative)
  else if magnitude > 310 then none
  else if magnitude < -330 then some (zero negative)
  else if exponent ≥ 0 then ofRatio negative (digits * Nat.pow 10 exponent.toNat) 1
  else ofRatio negative digits (Nat.pow 10 (-exponent).toNat)

/-- The product of two doubles, rounded. -/
def mul (left right : Binary64) : Option Binary64 :=
  let (leftNumerator, leftDenominator) := left.toRatio
  let (rightNumerator, rightDenominator) := right.toRatio
  ofRatio (left.negative != right.negative)
    (leftNumerator * rightNumerator) (leftDenominator * rightDenominator)

/-- The quotient of two doubles, rounded; `none` when the divisor is zero. -/
def div (left right : Binary64) : Option Binary64 :=
  let (leftNumerator, leftDenominator) := left.toRatio
  let (rightNumerator, rightDenominator) := right.toRatio
  if rightNumerator = 0 then none
  else ofRatio (left.negative != right.negative)
    (leftNumerator * rightDenominator) (leftDenominator * rightNumerator)

/-- Whether the two are the same number: the sign of a zero does not count. -/
def same (left right : Binary64) : Bool :=
  left == right || left.significand == 0 && right.significand == 0

end Binary64

end StackSwap
