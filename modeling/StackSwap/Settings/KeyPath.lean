import StackSwap.Settings.Value
import StackSwap.Text.Natural

namespace StackSwap

inductive KeyStep where
  | name (name : String)
  | place (index : Int)
deriving DecidableEq, Repr, Inhabited

/-- The steps from the root to a setting. -/
abbrev KeyPath := List KeyStep

namespace KeyPath

def isNameChar (char : Char) : Bool :=
  char.isAlphanum || char = ' ' || char = '_' || char = '-'

def skipBlanks (chars : List Char) : List Char :=
  chars.dropWhile (fun char => char = ' ' || char = '\t')

/-- A name of one character at least. -/
def name? (chars : List Char) : Option (KeyStep × List Char) :=
  let name := chars.takeWhile isNameChar
  if name.isEmpty then none
  else some (.name (String.ofList name), chars.dropWhile isNameChar)

/-- A number with blanks around it and the bracket behind it. -/
def place? (chars : List Char) : Option (KeyStep × List Char) := do
  let chars := skipBlanks chars
  let (sign, chars) := match chars with
    | '-' :: rest => ("-", rest)
    | chars => ("", chars)
  let digits := chars.takeWhile Char.isDigit
  let index ← Text.signed? (sign ++ String.ofList digits)
  match skipBlanks (chars.dropWhile Char.isDigit) with
  | ']' :: rest => return (.place index, rest)
  | _ => none

/-- The steps behind the first name. -/
def steps? : (fuel : Nat) → List Char → Option KeyPath
  | _, [] => some []
  | 0, _ => none
  | fuel + 1, '.' :: rest => do
    let (step, rest) ← name? rest
    return step :: (← steps? fuel rest)
  | fuel + 1, '[' :: rest => do
    let (step, rest) ← place? rest
    return step :: (← steps? fuel rest)
  | _ + 1, _ => none

def ofKey? (key : String) : Option KeyPath := do
  let (step, rest) ← name? key.toList
  return step :: (← steps? rest.length rest)

def ofKeys? (keys : List String) : Option KeyPath :=
  (keys.mapM ofKey?).map List.flatten

end KeyPath

namespace SettingValue

/-- The place in a list that an index means; a negative one counts from the end. -/
def position (index : Int) (length : Nat) : Nat :=
  if 0 ≤ index then index.toNat else (length + index).toNat

/-- Puts a value at the end of a path, where it is merged over what is there. Whatever on the way is
no table, or no list, gives way to one. -/
def placeAt (value : SettingValue) : KeyPath → Option SettingValue → SettingValue
  | [], existing => mergeOver existing value
  | .name name :: path, existing =>
    let key := lowerKey name
    let below := entries existing
    .table (Entries.insert key (placeAt value path (Entries.find? below key)) below)
  | .place index :: path, existing =>
    let below := items existing
    let position := position index below.length
    let padded := below ++ List.replicate (position + 1 - below.length) .null
    let item := if path.isEmpty then value else placeAt value path padded[position]?
    .list (padded.set position item)

/-- Reads the keys of a source as paths; one that is no path is a name. -/
def gather (source : List (String × SettingValue)) : List (String × SettingValue) :=
  entries (source.foldl
    (fun root (key, value) =>
      some (placeAt value ((KeyPath.ofKey? key).getD [.name key]) root))
    (some (.table [])))

end SettingValue

end StackSwap
