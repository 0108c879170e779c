import StackSwap.Toml.Moment
import StackSwap.Toml.Quoted
import StackSwap.Toml.Value

namespace StackSwap.Toml

def skipBlanks (chars : List Char) : List Char :=
  chars.dropWhile (fun char => char = ' ' || char = '\t')

/-- The text behind a comment, if one comes next. -/
def skipComment (chars : List Char) : List Char :=
  match chars with
  | '#' :: rest => rest.dropWhile Quoted.isPlain
  | chars => chars

/-- The text behind the end of a line, on which only blanks and a comment are left. -/
def endLine? (chars : List Char) : Option (List Char) :=
  match skipComment (skipBlanks chars) with
  | [] => some []
  | rest => Quoted.behindBreak? rest

def skipLines : (fuel : Nat) → List Char → List Char
  | 0, chars => chars
  | fuel + 1, chars =>
    let rest := skipComment (skipBlanks chars)
    match Quoted.behindBreak? rest with
    | some rest => skipLines fuel rest
    | none => rest

/-! ### Keys -/

/-- Whether a character may stand in a key without quotation marks. -/
def isKeyChar (char : Char) : Bool := char.isAlphanum || char = '_' || char = '-'

def keyPart? (chars : List Char) : Option (String × List Char) :=
  match chars with
  | '"' :: _ | '\'' :: _ => (Quoted.line? chars).map (fun (part, rest) => (String.ofList part, rest))
  | chars =>
    let part := chars.takeWhile isKeyChar
    if part.isEmpty then none else some (String.ofList part, chars.dropWhile isKeyChar)

/-- The parts of a key: those before the last one, the last one, and the text behind the key and
blanks. -/
def keyParts? : (fuel : Nat) → List Char → Option (List String × String × List Char)
  | 0, _ => none
  | fuel + 1, chars => do
    let (part, rest) ← keyPart? (skipBlanks chars)
    match skipBlanks rest with
    | '.' :: rest =>
      let (path, last, rest) ← keyParts? fuel rest
      return (part :: path, last, rest)
    | rest => return ([], part, rest)

/-- Values and the parts of a key nest less deep than this. -/
def nestingLimit : Nat := 80

def key? (chars : List Char) : Option (List String × String × List Char) := do
  let (path, last, rest) ← keyParts? (chars.length + 1) chars
  if path.length + 1 < nestingLimit then return (path, last, rest) else none

/-! ### Numbers -/

/-- The digits at the start of a text, without the underscores between them. A digit has to stand on
both sides of an underscore. -/
def digits? (isDigit : Char → Bool) : List Char → Option (List Char × List Char)
  | [] => none
  | char :: rest =>
    if !isDigit char then none
    else
      match rest with
      | '_' :: more => (digits? isDigit more).map (fun (chars, rest) => (char :: chars, rest))
      | next :: more =>
        if isDigit next then
          (digits? isDigit (next :: more)).map (fun (chars, rest) => (char :: chars, rest))
        else some ([char], next :: more)
      | [] => some ([char], [])

/-- An integer of a base, behind its prefix. -/
def based? (base : Nat) (chars : List Char) : Option (Value × List Char) := do
  let isDigit (char : Char) : Bool := (Text.hexValue? char).any (· < base)
  let (digits, rest) ← digits? isDigit chars
  let value := digits.foldl (fun value char => value * base + (Text.hexValue? char).getD 0) 0
  if value < Nat.pow 2 63 then return (.integer value, rest) else none

/-- The fraction of a number, if there is one. -/
def fraction? : List Char → Option (Option (List Char) × List Char)
  | '.' :: rest => (digits? Char.isDigit rest).map (fun (digits, rest) => (some digits, rest))
  | chars => some (none, chars)

/-- The exponent of a number, if there is one. -/
def exponent? : List Char → Option (Option Int × List Char)
  | 'e' :: rest | 'E' :: rest => do
    let (negative, rest) := match rest with
      | '+' :: rest => (false, rest)
      | '-' :: rest => (true, rest)
      | rest => (false, rest)
    let (digits, rest) ← digits? Char.isDigit rest
    let power : Int := Text.natural digits
    return (some (if negative then -power else power), rest)
  | chars => some (none, chars)

/-- A decimal integer or a float, behind its sign. No other digit may follow a leading zero, and
a float must not be beyond the range upwards. -/
def decimal? (negative : Bool) (chars : List Char) : Option (Value × List Char) := do
  let (whole, rest) ← digits? Char.isDigit chars
  if whole.length > 1 ∧ whole.head? = some '0' then none
  let (fraction, rest) ← fraction? rest
  let (exponent, rest) ← exponent? rest
  match fraction, exponent with
  | none, none =>
    let value := Text.natural whole
    if negative then (if value ≤ Nat.pow 2 63 then return (.integer (-(value : Int)), rest) else none)
    else if value < Nat.pow 2 63 then return (.integer value, rest)
    else none
  | fraction, exponent =>
    let decimals := fraction.getD []
    let value := Double.ofDecimal negative (Text.natural (whole ++ decimals))
      (exponent.getD 0 - decimals.length)
    if value = .infinite false then none else return (.float value, rest)

def number? (chars : List Char) : Option (Value × List Char) :=
  let signed (negative : Bool) : List Char → Option (Value × List Char)
    | 'i' :: 'n' :: 'f' :: rest => some (.float (.infinite negative), rest)
    | 'n' :: 'a' :: 'n' :: rest => some (.float .undefined, rest)
    | chars => decimal? negative chars
  match chars with
  | '0' :: 'x' :: rest => based? 16 rest
  | '0' :: 'o' :: rest => based? 8 rest
  | '0' :: 'b' :: rest => based? 2 rest
  | '+' :: rest => signed false rest
  | '-' :: rest => signed true rest
  | chars => signed false chars

/-! ### Values -/

mutual

/-- Reads a value, inside of which others may nest as deep as `depth` says. -/
def value? : (fuel depth : Nat) → List Char → Option (Value × List Char)
  | 0, _, _ => none
  | fuel + 1, depth, chars =>
    match chars with
    | '"' :: _ | '\'' :: _ =>
      (Quoted.read? chars).map (fun (text, rest) => (.text (String.ofList text), rest))
    | '[' :: rest =>
      if depth = 0 then none
      else (items? fuel (depth - 1) rest).map (fun (items, rest) => (.array items, rest))
    | '\x7b' :: rest =>
      if depth = 0 then none
      else match skipBlanks rest with
      | '\x7d' :: rest => some (.table .inline [], rest)
      | rest => (fields? fuel (depth - 1) ⟨.inline, []⟩ rest).map
          (fun (table, rest) => (.table .inline table.entries, rest))
    | 't' :: 'r' :: 'u' :: 'e' :: rest => some (.bool true, rest)
    | 'f' :: 'a' :: 'l' :: 's' :: 'e' :: rest => some (.bool false, rest)
    | chars =>
      if Moment.startsDate chars || Moment.startsTime chars then
        (Moment.read? chars).map (fun (text, rest) => (.moment text, rest))
      else number? chars

/-- Reads the items of an array and its closing bracket. A comma may follow the last item. -/
def items? : (fuel depth : Nat) → List Char → Option (List Value × List Char)
  | 0, _, _ => none
  | fuel + 1, depth, chars =>
    match skipLines chars.length chars with
    | ']' :: rest => some ([], rest)
    | chars => do
      let (item, rest) ← value? fuel depth chars
      match skipLines rest.length rest with
      | ',' :: rest =>
        let (items, rest) ← items? fuel depth rest
        return (item :: items, rest)
      | ']' :: rest => return ([item], rest)
      | _ => none

/-- Reads the fields of an inline table that has some, and its closing brace. -/
def fields? : (fuel depth : Nat) → Draft → List Char → Option (Draft × List Char)
  | 0, _, _, _ => none
  | fuel + 1, depth, table, chars => do
    let (path, key, rest) ← key? chars
    match rest with
    | '=' :: rest =>
      let (value, rest) ← value? fuel depth (skipBlanks rest)
      let table ← table.define? path key value
      match skipBlanks rest with
      | ',' :: rest => fields? fuel depth table rest
      | '\x7d' :: rest => return (table, rest)
      | _ => none
    | _ => none

end

/-! ### Documents -/

/-- Reads the path in a header and its closing brackets. -/
def header? (brackets : List Char) (chars : List Char) :
    Option (List String × String × List Char) := do
  let (path, key, rest) ← key? chars
  if brackets.isPrefixOf rest then return (path, key, ← endLine? (rest.drop brackets.length))
  else none

/-- Reads the lines of a document. `current` is the path of the table that is being defined. -/
def lines? : (fuel : Nat) → (current : List String) → Draft → List Char → Option Draft
  | 0, _, _, _ => none
  | fuel + 1, current, table, chars => do
    match skipLines chars.length chars with
    | [] => return table
    | '[' :: '[' :: rest =>
      let (path, key, rest) ← header? [']', ']'] rest
      lines? fuel (path ++ [key]) (← table.beginNext? path key) rest
    | '[' :: rest =>
      let (path, key, rest) ← header? [']'] rest
      lines? fuel (path ++ [key]) (← table.begin? path key) rest
    | chars =>
      let (path, key, rest) ← key? chars
      match rest with
      | '=' :: rest =>
        let (value, rest) ← value? (rest.length + 1) (nestingLimit - 1) (skipBlanks rest)
        let table ← Draft.change? false (Draft.define? path key value) current table
        lines? fuel current table (← endLine? rest)
      | _ => none

def parse? (text : String) : Option (List (String × Value)) :=
  let chars := match text.toList with
    | '\ufeff' :: rest => rest
    | chars => chars
  (lines? (chars.length + 1) [] ⟨.header, []⟩ chars).map Draft.entries

end StackSwap.Toml
