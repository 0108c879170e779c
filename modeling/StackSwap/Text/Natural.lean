namespace StackSwap.Text

def digitValue (char : Char) : Nat := char.toNat - '0'.toNat

/-- The natural number that decimal digits write. -/
def natural (digits : List Char) : Nat :=
  digits.foldl (fun value char => value * 10 + digitValue char) 0

/-- The natural number written in decimal digits, of which there has to be one at least. -/
def natural? (digits : List Char) : Option Nat :=
  if digits.isEmpty || !digits.all Char.isDigit then none else some (natural digits)

def hexValue? (char : Char) : Option Nat :=
  if '0' ≤ char ∧ char ≤ '9' then some (char.toNat - '0'.toNat)
  else if 'a' ≤ char ∧ char ≤ 'f' then some (char.toNat - 'a'.toNat + 10)
  else if 'A' ≤ char ∧ char ≤ 'F' then some (char.toNat - 'A'.toNat + 10)
  else none

/-- An unsigned 64-bit integer; a plus sign may stand in front. -/
def unsigned? (text : String) : Option Nat := do
  let digits := match text.toList with
    | '+' :: rest => rest
    | chars => chars
  let value ← natural? digits
  if value < Nat.pow 2 64 then return value else none

/-- A signed 64-bit integer; a sign may stand in front. -/
def signed? (text : String) : Option Int := do
  let (negative, digits) := match text.toList with
    | '+' :: rest => (false, rest)
    | '-' :: rest => (true, rest)
    | chars => (false, chars)
  let value ← natural? digits
  if negative then (if value ≤ Nat.pow 2 63 then return -(value : Int) else none)
  else if value < Nat.pow 2 63 then return (value : Int)
  else none

end StackSwap.Text
