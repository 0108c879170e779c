import StackSwap.Number.Binary64

/-! The shortest decimal in the interval of numbers that round to a double. The grids of one, two,
three, … digits are tried in turn: if any point of one is in the interval, so is a neighbour of the
number. -/

namespace StackSwap

/-- The decimal number `digits * 10 ^ exponent`. -/
structure Decimal where
  digits : Nat
  exponent : Int
deriving DecidableEq, Repr, Inhabited

namespace Binary64

/-- The ends of the interval that rounds to a positive number, and the number itself, as
numerators over one common denominator. -/
structure Interval where
  low : Nat
  middle : Nat
  high : Nat
  denominator : Nat
  inclusive : Bool

/-- The numbers that round to this one. Below a power of two the step is half as wide. -/
def interval (number : Binary64) : Interval :=
  let power := number.exponent - 2
  let narrow := number.significand = Nat.pow 2 (precision - 1) && number.exponent > minExponent
  let below := 4 * number.significand - (if narrow then 1 else 2)
  let (low, denominator) := scale below 1 power
  let (middle, _) := scale (4 * number.significand) 1 power
  let (high, _) := scale (4 * number.significand + 2) 1 power
  ⟨low, middle, high, denominator, number.significand % 2 = 0⟩

/-- Whether `digits * 10 ^ exponent` lies in an interval. -/
def Interval.holds (range : Interval) (point : Decimal) : Bool :=
  let (numerator, denominator) :=
    if point.exponent ≥ 0 then (point.digits * Nat.pow 10 point.exponent.toNat, 1)
    else (point.digits, Nat.pow 10 (-point.exponent).toNat)
  let left := numerator * range.denominator
  let low := range.low * denominator
  let high := range.high * denominator
  if range.inclusive then low ≤ left && left ≤ high else low < left && left < high

/-- The least `k` with the middle of the interval below `10 ^ k`. -/
def Interval.magnitude (range : Interval) : Int :=
  let whole := range.middle / range.denominator
  if whole > 0 then (Nat.toDigits 10 whole).length
  else
    -- no negative power of ten is a double, so one over the number is no power of ten either
    1 - (Nat.toDigits 10 (range.denominator / range.middle)).length

/-- The neighbours of the number on the grid with the given exponent. -/
def Interval.neighbours (range : Interval) (exponent : Int) : Decimal × Decimal :=
  let (numerator, denominator) :=
    if exponent ≥ 0 then (range.middle, range.denominator * Nat.pow 10 exponent.toNat)
    else (range.middle * Nat.pow 10 (-exponent).toNat, range.denominator)
  let floor := numerator / denominator
  (⟨floor, exponent⟩, ⟨floor + 1, exponent⟩)

/-- Whether the lower neighbour is at least as near as the upper one; a tie goes to the even. -/
def Interval.prefersLower (range : Interval) (lower : Decimal) : Bool :=
  let (numerator, denominator) :=
    if lower.exponent ≥ 0 then (range.middle, range.denominator * Nat.pow 10 lower.exponent.toNat)
    else (range.middle * Nat.pow 10 (-lower.exponent).toNat, range.denominator)
  let twice := 2 * (numerator % denominator)
  twice < denominator || twice = denominator && lower.digits % 2 = 0

/-- The first grid, from `count` digits up, with a point that reads back. -/
def Interval.search (range : Interval) (magnitude : Int) : (count fuel : Nat) → Decimal
  | count, 0 => (range.neighbours (magnitude - count)).1
  | count, fuel + 1 =>
    let (lower, upper) := range.neighbours (magnitude - count)
    match range.holds lower, range.holds upper with
    | true, true => if range.prefersLower lower then lower else upper
    | true, false => lower
    | false, true => upper
    | false, false => search range magnitude (count + 1) fuel

/-- The shortest decimal that reads back; seventeen digits always suffice. -/
def shortest (number : Binary64) : Decimal :=
  if number.significand = 0 then ⟨0, 0⟩
  else
    let range := number.interval
    range.search range.magnitude 1 17

end Binary64

namespace Decimal

/-- The significant digits, without zeros at the end. -/
def significant (number : Decimal) : List Char :=
  let digits := Nat.toDigits 10 number.digits
  match (digits.reverse.dropWhile (· == '0')).reverse with
  | [] => ['0']
  | kept => kept

/-- The exponent of ten of the leading digit. -/
def leadingExponent (number : Decimal) : Int :=
  if number.digits = 0 then 0
  else number.exponent + (Nat.toDigits 10 number.digits).length - 1

/-- The digits around a decimal point and no exponent. `fraction` adds `.0` to an integer. -/
def positional (number : Decimal) (fraction : Bool) : List Char :=
  let digits := number.significant
  let leading := number.leadingExponent
  if leading < 0 then
    ['0', '.'] ++ List.replicate (-leading - 1).toNat '0' ++ digits
  else
    let whole := leading.toNat + 1
    if digits.length ≤ whole then
      digits ++ List.replicate (whole - digits.length) '0' ++ (if fraction then ['.', '0'] else [])
    else digits.take whole ++ ['.'] ++ digits.drop whole

/-- One digit, the others behind a point, and the exponent with its sign. -/
def scientific (number : Decimal) : List Char :=
  let leading := number.leadingExponent
  let exponent := (if leading < 0 then '-' else '+') :: Nat.toDigits 10 leading.natAbs
  match number.significant with
  | [] => []
  | [digit] => digit :: 'e' :: exponent
  | digit :: rest => digit :: '.' :: rest ++ 'e' :: exponent

end Decimal

namespace Binary64

/-- The sign that is written before the digits. -/
def sign (number : Binary64) : List Char := if number.negative then ['-'] else []

/-- The text of a number in a document: positional from `0.00001` up to sixteen digits before the
point, and always with a point or an exponent. -/
def documentText (number : Binary64) : String :=
  let decimal := number.shortest
  let leading := decimal.leadingExponent
  String.ofList (number.sign ++
    (if -5 ≤ leading ∧ leading ≤ 15 then decimal.positional true else decimal.scientific))

/-- The text of a number in plain digits, without an exponent and without `.0`. -/
def plainText (number : Binary64) : String :=
  String.ofList (number.sign ++ number.shortest.positional false)

end Binary64

end StackSwap
