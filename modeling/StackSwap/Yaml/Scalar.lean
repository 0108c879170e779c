import StackSwap.Json
import StackSwap.Number.Double
import StackSwap.Yaml.Tag

/-! The value of a scalar where any value may stand. A zero in front of other digits makes a string.
An integer beyond 64 bits has no value, but one beyond 128 bits is a float. -/

namespace StackSwap.Yaml.Scalar

/-- Whether this is a spelling of null. -/
def isNull (text : String) : Bool := ["null", "Null", "NULL", "~"].contains text

def bool? (text : String) : Option Bool :=
  if ["true", "True", "TRUE"].contains text then some true
  else if ["false", "False", "FALSE"].contains text then some false
  else none

/-- Whether digits, perhaps behind a sign, have a zero in front. -/
def isPadded (chars : List Char) : Bool :=
  let digits := match chars with
    | '+' :: rest | '-' :: rest => rest
    | chars => chars
  digits.length > 1 && digits.head? = some '0' && digits.all Char.isDigit

/-- The natural number that digits of a base write. -/
def natural? (base : Nat) (digits : List Char) : Option Nat :=
  if digits.isEmpty then none
  else digits.foldlM (fun value char => do
    let digit ← Text.hexValue? char
    if digit < base then return value * base + digit else none) 0

/-- The magnitude of an integer: of base sixteen, eight or two behind `0x`, `0o` or `0b`. -/
def magnitude? : List Char → Option Nat
  | '0' :: 'x' :: digits => natural? 16 digits
  | '0' :: 'o' :: digits => natural? 8 digits
  | '0' :: 'b' :: digits => natural? 2 digits
  | digits => natural? 10 digits

/-- What a text is as an integer. -/
inductive Reading where
  | other
  | value (integer : Int)
  | tooLarge
deriving DecidableEq, Repr, Inhabited

def integer (text : String) : Reading :=
  let chars := text.toList
  if isPadded chars then .other
  else
    let (negative, digits) := match chars with
      | '+' :: rest => (false, rest)
      | '-' :: rest => (true, rest)
      | chars => (false, chars)
    match negative, magnitude? digits with
    | _, none => .other
    | false, some value =>
      if value < Nat.pow 2 64 then .value value else if value < Nat.pow 2 128 then .tooLarge else .other
    | true, some value =>
      if value ≤ Nat.pow 2 63 then .value (-(value : Int))
      else if value ≤ Nat.pow 2 127 then .tooLarge else .other

/-- The words for what is not finite; they have no sign other than these. -/
def isBeyondNumbers (text : String) : Bool :=
  [".inf", ".Inf", ".INF", "+.inf", "+.Inf", "+.INF", "-.inf", "-.Inf", "-.INF",
    ".nan", ".NaN", ".NAN"].contains text

/-- The float of a spelling; what is not finite reads as null. -/
def float? (text : String) : Option Json :=
  if isBeyondNumbers text then some .null
  else (Double.ofText? text).bind (fun number => number.finite?.map (fun value => .num (.float value)))

/-- The value of a plain scalar without a tag. -/
def plain? (text : String) : Option Json :=
  if text.isEmpty || isNull text then some .null
  else match bool? text with
    | some value => some (.bool value)
    | none =>
      match integer text with
      | .value value => some (.num (.int value))
      | .tooLarge => none
      | .other =>
        if isPadded text.toList then some (.str text)
        else some ((float? text).getD (.str text))

/-- The value of a scalar. A core tag has to fit the text, and no local tag has a value. -/
def value? (tag : Option NodeTag) (plain : Bool) (text : String) : Option Json :=
  match tag with
  | none => if plain then plain? text else some (.str text)
  | some (.core "bool") => (bool? text).map .bool
  | some (.core "int") =>
    match integer text with
    | .value value => some (.num (.int value))
    | _ => none
  | some (.core "float") => float? text
  | some (.core "null") => if isNull text then some .null else none
  | some tag => if tag.isLocal then none else some (.str text)

end StackSwap.Yaml.Scalar
