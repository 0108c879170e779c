import StackSwap.Number.Binary64
import StackSwap.Text.Natural

namespace StackSwap

inductive Double where
  | finite (value : Binary64)
  | infinite (negative : Bool)
  | undefined
deriving DecidableEq, Repr, Inhabited

namespace Double

/-- The value of a decimal number; beyond the range it is infinite. -/
def ofDecimal (negative : Bool) (digits : Nat) (exponent : Int) : Double :=
  match Binary64.ofDecimal negative digits exponent with
  | some value => .finite value
  | none => .infinite negative

def finite? : Double → Option Binary64
  | .finite value => some value
  | _ => none

/-- The power of ten behind the letter of an exponent; no exponent is the power zero. -/
def power? : List Char → Option Int
  | [] => some 0
  | letter :: rest => do
    if letter ≠ 'e' ∧ letter ≠ 'E' then none
    match rest with
    | '+' :: digits => (Text.natural? digits).map (fun power => (power : Int))
    | '-' :: digits => (Text.natural? digits).map (fun power => -(power : Int))
    | digits => (Text.natural? digits).map (fun power => (power : Int))

/-- The value of digits with perhaps a point and an exponent. At least one digit has to stand before
the exponent. -/
def ofDigits? (negative : Bool) (chars : List Char) : Option Double := do
  let whole := chars.takeWhile Char.isDigit
  let rest := chars.dropWhile Char.isDigit
  let (fraction, rest) := match rest with
    | '.' :: rest => (rest.takeWhile Char.isDigit, rest.dropWhile Char.isDigit)
    | rest => ([], rest)
  if whole.isEmpty && fraction.isEmpty then none
  let power ← power? rest
  return ofDecimal negative (Text.natural (whole ++ fraction)) (power - fraction.length)

/-- The double that a text writes: a decimal number, or the word for an infinity or for what is not
a number, in letters of either case. A sign may stand in front. -/
def ofText? (text : String) : Option Double :=
  let (negative, chars) := match text.toList with
    | '+' :: rest => (false, rest)
    | '-' :: rest => (true, rest)
    | chars => (false, chars)
  let word := String.ofList (chars.map Char.toLower)
  if word = "inf" ∨ word = "infinity" then some (.infinite negative)
  else if word = "nan" then some .undefined
  else ofDigits? negative chars

end Double

end StackSwap
