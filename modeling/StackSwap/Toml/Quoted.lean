import StackSwap.Text.Natural

/-! Strings of TOML. One or two quotation marks may stand anywhere in a string on several lines, also
right before the three that close it. -/

namespace StackSwap.Toml.Quoted

/-- The characters that a comment or a string may hold as they are. -/
def isPlain (char : Char) : Bool :=
  char = '\t' || ' ' ≤ char && char ≠ '\x7f'

def behindBreak? : List Char → Option (List Char)
  | '\n' :: rest => some rest
  | '\r' :: '\n' :: rest => some rest
  | _ => none

def escaped? : Char → Option Char
  | 'b' => some '\x08'
  | 't' => some '\t'
  | 'n' => some '\n'
  | 'f' => some '\x0c'
  | 'r' => some '\r'
  | '"' => some '"'
  | '\\' => some '\\'
  | _ => none

/-- The character whose code is written in so many hexadecimal digits. -/
def hexChar? (width : Nat) (chars : List Char) : Option (Char × List Char) := do
  let digits ← (chars.take width).mapM Text.hexValue?
  let code := digits.foldl (fun value digit => value * 16 + digit) 0
  if digits.length = width ∧ code.isValidChar then return (Char.ofNat code, chars.drop width)
  else none

/-- The character of an escape, from behind the backslash. -/
def escape? : List Char → Option (Char × List Char)
  | 'u' :: rest => hexChar? 4 rest
  | 'U' :: rest => hexChar? 8 rest
  | letter :: rest => (escaped? letter).map (·, rest)
  | [] => none

def basic? : (fuel : Nat) → List Char → Option (List Char × List Char)
  | 0, _ => none
  | _ + 1, [] => none
  | _ + 1, '"' :: rest => some ([], rest)
  | fuel + 1, '\\' :: rest => do
    let (char, rest) ← escape? rest
    let (chars, rest) ← basic? fuel rest
    return (char :: chars, rest)
  | fuel + 1, char :: rest =>
    if isPlain char then (basic? fuel rest).map (fun (chars, rest) => (char :: chars, rest)) else none

def literal? : List Char → Option (List Char × List Char)
  | [] => none
  | '\'' :: rest => some ([], rest)
  | char :: rest =>
    if isPlain char then (literal? rest).map (fun (chars, rest) => (char :: chars, rest)) else none

def skipSpace : (fuel : Nat) → List Char → List Char
  | 0, chars => chars
  | fuel + 1, ' ' :: rest => skipSpace fuel rest
  | fuel + 1, '\t' :: rest => skipSpace fuel rest
  | fuel + 1, chars =>
    match behindBreak? chars with
    | some rest => skipSpace fuel rest
    | none => chars

/-- The text behind a backslash that ends a line, with the blanks and empty lines that follow. -/
def behindContinuation? (chars : List Char) : Option (List Char) :=
  (behindBreak? (chars.dropWhile (fun char => char = ' ' || char = '\t'))).map
    (fun rest => skipSpace rest.length rest)

/-- Reads a string on several lines up to its closing marks. -/
def lines? (mark : Char) : (fuel : Nat) → List Char → Option (List Char × List Char)
  | 0, _ => none
  | _ + 1, [] => none
  | fuel + 1, char :: rest =>
    let marks := (char :: rest).takeWhile (· == mark)
    if 3 ≤ marks.length then
      if marks.length ≤ 5 then some (marks.drop 3, (char :: rest).drop marks.length)
      else some ([mark, mark], (char :: rest).drop 5)
    else
      match behindBreak? (char :: rest) with
      | some rest => (lines? mark fuel rest).map (fun (chars, rest) => ('\n' :: chars, rest))
      | none =>
        if char = '\\' ∧ mark = '"' then
          match behindContinuation? rest with
          | some rest => lines? mark fuel rest
          | none => do
            let (char, rest) ← escape? rest
            let (chars, rest) ← lines? mark fuel rest
            return (char :: chars, rest)
        else if isPlain char then
          (lines? mark fuel rest).map (fun (chars, rest) => (char :: chars, rest))
        else none

/-- Reads a string on one line, from its quotation mark on. -/
def line? : List Char → Option (List Char × List Char)
  | '"' :: rest => basic? (rest.length + 1) rest
  | '\'' :: rest => literal? rest
  | _ => none

def read? (chars : List Char) : Option (List Char × List Char) :=
  let several (mark : Char) (rest : List Char) :=
    let rest := (behindBreak? rest).getD rest
    lines? mark (rest.length + 1) rest
  match chars with
  | '"' :: '"' :: '"' :: rest => several '"' rest
  | '\'' :: '\'' :: '\'' :: rest => several '\'' rest
  | chars => line? chars

end StackSwap.Toml.Quoted
