import StackSwap.Json.Numeral

/-! JSON text as a tree of what is written, with repeated keys, and with literals that the grammar
admits but that stand for no value. A reader that passes over such a literal accepts the text. -/

namespace StackSwap.Json

/-- What a JSON text writes. -/
inductive Document where
  | null
  | bool (value : Bool)
  | num (value : Option Number)
  | str (value : Option String)
  | arr (items : List Document)
  | obj (fields : List (Option String × Document))
deriving Inhabited

namespace Document

/-- The four characters that may stand between tokens. -/
def isBlank (char : Char) : Bool :=
  char = ' ' || char = '\t' || char = '\n' || char = '\r'

def skipBlank : List Char → List Char
  | [] => []
  | char :: rest => if isBlank char then skipBlank rest else char :: rest

/-- The code unit that four hexadecimal digits write, and the text after them. -/
def codeUnit? : List Char → Option (Nat × List Char)
  | a :: b :: c :: d :: rest => do
    let a ← Text.hexValue? a
    let b ← Text.hexValue? b
    let c ← Text.hexValue? c
    let d ← Text.hexValue? d
    return (a * 4096 + b * 256 + c * 16 + d, rest)
  | _ => none

def escape? : Char → Option Char
  | '"' => some '"'
  | '\\' => some '\\'
  | '/' => some '/'
  | 'b' => some '\x08'
  | 'f' => some '\x0c'
  | 'n' => some '\n'
  | 'r' => some '\r'
  | 't' => some '\t'
  | _ => none

/-- The second half of a surrogate pair, written as an escape at the start of the text. -/
def lowSurrogate? : List Char → Option (Nat × List Char)
  | '\\' :: 'u' :: rest => do
    let (unit, rest) ← codeUnit? rest
    if 0xDC00 ≤ unit ∧ unit ≤ 0xDFFF then return (unit, rest) else none
  | _ => none

/-- Reads the characters of a string up to its closing quotation mark. The characters read so far
are in reverse; `none` stands for those of a string that has half of a surrogate pair. -/
def string? : (fuel : Nat) → Option (List Char) → List Char → Option (Option String × List Char)
  | 0, _, _ => none
  | _ + 1, read, '"' :: rest => some (read.map (fun chars => String.ofList chars.reverse), rest)
  | fuel + 1, read, '\\' :: 'u' :: rest => do
    let (unit, rest) ← codeUnit? rest
    if 0xD800 ≤ unit ∧ unit ≤ 0xDBFF then
      match lowSurrogate? rest with
      | some (low, rest) =>
        let char := Char.ofNat (0x10000 + (unit - 0xD800) * 0x400 + (low - 0xDC00))
        string? fuel (read.map (char :: ·)) rest
      | none => string? fuel none rest
    else if 0xDC00 ≤ unit ∧ unit ≤ 0xDFFF then string? fuel none rest
    else string? fuel (read.map (Char.ofNat unit :: ·)) rest
  | fuel + 1, read, '\\' :: letter :: rest => do
    let char ← escape? letter
    string? fuel (read.map (char :: ·)) rest
  | fuel + 1, read, char :: rest =>
    if char = '\\' ∨ char.toNat < 0x20 then none
    else string? fuel (read.map (char :: ·)) rest
  | _ + 1, _, [] => none

/-- The decimal digits at the start of the text, and the rest. -/
def digits : List Char → List Char × List Char
  | [] => ([], [])
  | char :: rest =>
    if char.isDigit then
      let (more, rest) := digits rest
      (char :: more, rest)
    else ([], char :: rest)

/-- At least one decimal digit at the start of the text. -/
def digits? (chars : List Char) : Option (List Char × List Char) :=
  match digits chars with
  | ([], _) => none
  | found => some found

/-- Reads an exponent part, if there is one. -/
def exponent? : List Char → Option (Option (Bool × List Char) × List Char)
  | 'e' :: rest | 'E' :: rest => do
    let (negative, rest) := match rest with
      | '+' :: rest => (false, rest)
      | '-' :: rest => (true, rest)
      | rest => (false, rest)
    let (found, rest) ← digits? rest
    return (some (negative, found), rest)
  | rest => some (none, rest)

/-- Reads a number. A zero in front of other digits is refused. -/
def number? (chars : List Char) : Option (Option Number × List Char) := do
  let (negative, chars) := match chars with
    | '-' :: rest => (true, rest)
    | rest => (false, rest)
  let (whole, rest) ← digits? chars
  if whole.length > 1 ∧ whole.head? = some '0' then none
  let (fraction, rest) ← match rest with
    | '.' :: rest => (digits? rest).map (fun (found, rest) => (some found, rest))
    | rest => some (none, rest)
  let (exponent, rest) ← exponent? rest
  return ((Numeral.mk negative whole fraction exponent).value, rest)

mutual

def value? : (fuel : Nat) → List Char → Option (Document × List Char)
  | 0, _ => none
  | fuel + 1, chars =>
    match skipBlank chars with
    | 'n' :: 'u' :: 'l' :: 'l' :: rest => some (.null, rest)
    | 't' :: 'r' :: 'u' :: 'e' :: rest => some (.bool true, rest)
    | 'f' :: 'a' :: 'l' :: 's' :: 'e' :: rest => some (.bool false, rest)
    | '"' :: rest => (string? (rest.length + 1) (some []) rest).map (fun (text, rest) => (.str text, rest))
    | '[' :: rest =>
      match skipBlank rest with
      | ']' :: rest => some (.arr [], rest)
      | rest => (items? fuel rest).map (fun (items, rest) => (.arr items, rest))
    | '\x7b' :: rest =>
      match skipBlank rest with
      | '\x7d' :: rest => some (.obj [], rest)
      | rest => (fields? fuel rest).map (fun (fields, rest) => (.obj fields, rest))
    | rest => (number? rest).map (fun (number, rest) => (.num number, rest))

/-- Reads the items of an array that has some, with the bracket that closes it. -/
def items? : (fuel : Nat) → List Char → Option (List Document × List Char)
  | 0, _ => none
  | fuel + 1, chars => do
    let (item, rest) ← value? fuel chars
    match skipBlank rest with
    | ',' :: rest =>
      let (items, rest) ← items? fuel rest
      return (item :: items, rest)
    | ']' :: rest => return ([item], rest)
    | _ => none

/-- Reads the fields of an object that has some, with the brace that closes it. -/
def fields? : (fuel : Nat) → List Char → Option (List (Option String × Document) × List Char)
  | 0, _ => none
  | fuel + 1, chars =>
    match skipBlank chars with
    | '"' :: rest => do
      let (key, rest) ← string? (rest.length + 1) (some []) rest
      match skipBlank rest with
      | ':' :: rest =>
        let (value, rest) ← value? fuel rest
        match skipBlank rest with
        | ',' :: rest =>
          let (fields, rest) ← fields? fuel rest
          return ((key, value) :: fields, rest)
        | '\x7d' :: rest => return ([(key, value)], rest)
        | _ => none
      | _ => none
    | _ => none

end

def parse (text : String) : Option Document :=
  let chars := text.toList
  match value? (2 * chars.length + 2) chars with
  | some (document, rest) => if (skipBlank rest).isEmpty then some document else none
  | none => none

mutual

/-- The value of a document whose arrays and objects nest less than `depth` deep. -/
def toJson? (depth : Nat) : Document → Option Json
  | .null => some .null
  | .bool value => some (.bool value)
  | .num value => value.map .num
  | .str value => value.map .str
  | .arr items => if depth ≤ 1 then none else (itemsToJson? (depth - 1) items).map .arr
  | .obj fields => if depth ≤ 1 then none else (fieldsToJson? (depth - 1) fields).map .ofPairs
termination_by structural document => document

def itemsToJson? (depth : Nat) : List Document → Option (List Json)
  | [] => some []
  | item :: rest => do
    let value ← toJson? depth item
    return value :: (← itemsToJson? depth rest)
termination_by structural items => items

/-- The keys and values of all fields, in the order of the text. -/
def fieldsToJson? (depth : Nat) : List (Option String × Document) → Option (List (String × Json))
  | [] => some []
  | (key, field) :: rest => do
    let key ← key
    let value ← toJson? depth field
    return (key, value) :: (← fieldsToJson? depth rest)
termination_by structural fields => fields

end

/-- Texts may nest arrays and objects one less deep than this. -/
def depthLimit : Nat := 128

end Document

def parse (text : String) : Option Json :=
  (Document.parse text).bind (Document.toJson? Document.depthLimit)

end StackSwap.Json
