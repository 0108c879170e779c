import StackSwap.Json
import StackSwap.Text.Natural

/-! Number literals of JSON text. A double is found from the digits that fit an unsigned 64-bit
integer, scaled once by a power of ten, so its last bit may differ from the nearest double. -/

namespace StackSwap.Json

/-- A literal in parts, each list holding decimal digits only. -/
structure Numeral where
  negative : Bool
  whole : List Char
  fraction : Option (List Char)
  exponent : Option (Bool × List Char)

namespace Numeral

/-- One more than the largest unsigned 64-bit integer. -/
def capacity : Nat := Nat.pow 2 64

/-- Appends digits to a significand until one does not fit; also the digits left over. -/
def accumulate : Nat → List Char → Nat × List Char
  | significand, [] => (significand, [])
  | significand, char :: rest =>
    let next := significand * 10 + Text.digitValue char
    if next < capacity then accumulate next rest else (significand, char :: rest)

/-- Scales by a power of ten: in steps of `10 ^ 308` downwards, and `none` beyond the range. -/
def scaleByTen : (steps : Nat) → Binary64 → Int → Option Binary64
  | 0, number, _ => some number
  | steps + 1, number, exponent =>
    if exponent.natAbs ≤ 308 then do
      let power ← Binary64.ofDecimal false 1 exponent.natAbs
      if exponent ≥ 0 then number.mul power else number.div power
    else if number.significand = 0 then some number
    else if exponent ≥ 0 then none
    else do
      let power ← Binary64.ofDecimal false 1 308
      scaleByTen steps (← number.div power) (exponent + 308)

def double (negative : Bool) (significand : Nat) (exponent : Int) : Option Binary64 := do
  let number ← Binary64.ofRatio false significand 1
  -- two steps of `10 ^ 308` take every 64-bit significand to zero
  let scaled ← scaleByTen 4 number exponent
  return { scaled with negative := negative }

/-- The power of ten that the exponent part names. -/
def power : Option (Bool × List Char) → Int
  | none => 0
  | some (negative, digits) => if negative then -(Text.natural digits : Int) else Text.natural digits

/-- The number that the literal writes; `none` when it is beyond the range of doubles. -/
def value (literal : Numeral) : Option Number :=
  let (significand, dropped) := accumulate 0 literal.whole
  match literal.fraction, literal.exponent with
  | none, none =>
    if dropped ≠ [] then
      (double literal.negative significand dropped.length).map Number.float
    else if ¬ literal.negative then some (.int significand)
    else if significand = 0 ∨ Nat.pow 2 63 < significand then
      (double true significand 0).map Number.float
    else some (.int (-(significand : Int)))
  | fraction, exponent =>
    let (significand, ignored) := accumulate significand (fraction.getD [])
    let read := (fraction.getD []).length - ignored.length
    (double literal.negative significand (dropped.length - read + power exponent)).map Number.float

end Numeral

end StackSwap.Json
