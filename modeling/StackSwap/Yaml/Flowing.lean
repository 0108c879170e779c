import StackSwap.Text.Natural
import StackSwap.Yaml.Glyph

/-! Scalars that flow over lines are words with gaps between them. In a gap with line breaks the
blanks are dropped; a single break becomes a space, and of several the first one is dropped. -/

namespace StackSwap.Yaml

structure Gap where
  spaces : List Char := []
  broken : Bool := false
  first : List Char := []
  others : List Char := []
deriving Inhabited

namespace Gap

/-- What a gap contributes to the scalar. -/
def text (gap : Gap) : List Char :=
  if !gap.broken then gap.spaces
  else if gap.first = ['\n'] then (if gap.others.isEmpty then [' '] else gap.others)
  else gap.first ++ gap.others

/-- Extends a gap up to the next word. A tab left of the margin is refused after a line break. -/
def read? (margin : Nat) (gap : Gap) : List Glyph → Option (Gap × List Glyph)
  | [] => some (gap, [])
  | glyph :: rest =>
    if isBlank glyph.char then
      if !gap.broken then read? margin { gap with spaces := gap.spaces ++ [glyph.char] } rest
      else if glyph.char = '\t' && glyph.column < margin then none
      else read? margin gap rest
    else if glyph.breaks then
      if gap.broken then read? margin { gap with others := gap.others ++ [glyph.char] } rest
      else read? margin { gap with broken := true, first := [glyph.char] } rest
    else some (gap, glyph :: rest)

end Gap

/-! ### Plain scalars -/

/-- A word of a plain scalar. A colon before a blank ends it, and inside flow collections so does
one of their indicators; a colon right before such an indicator is refused. -/
def plainWord? (inFlow : Bool) : List Glyph → Option (List Char × List Glyph)
  | [] => some ([], [])
  | glyph :: rest =>
    let markNext := match rest with
      | next :: _ => isFlowMark next.char || next.char = '?'
      | [] => false
    if isBlank glyph.char || glyph.breaks then some ([], glyph :: rest)
    else if inFlow && glyph.char = ':' && markNext then none
    else if glyph.char = ':' && endsWord rest || inFlow && isFlowMark glyph.char then
      some ([], glyph :: rest)
    else (plainWord? inFlow rest).map (fun (chars, rest) => (glyph.char :: chars, rest))

/-- Whether a plain scalar ends before this text, which follows one of its gaps. -/
def endsPlain (inFlow : Bool) (margin : Nat) : List Glyph → Bool
  | [] => true
  | glyph :: rest =>
    !inFlow && glyph.column < margin || glyph.char = '#' || atDocumentMarker (glyph :: rest)

/-- Reads a plain scalar whose lines have to reach the margin. Also tells whether a line break
follows it. -/
def plain? (inFlow : Bool) (margin : Nat) :
    (fuel : Nat) → List Glyph → Option (List Char × Bool × List Glyph)
  | 0, _ => none
  | fuel + 1, glyphs => do
    let (word, rest) ← plainWord? inFlow glyphs
    let (gap, rest) ← Gap.read? margin {} rest
    if gap.spaces.isEmpty && !gap.broken || endsPlain inFlow margin rest then
      return (word, gap.broken, rest)
    let (more, broken, after) ← plain? inFlow margin fuel rest
    if more.isEmpty then return (word, gap.broken, after)
    return (word ++ gap.text ++ more, broken, after)

/-! ### Scalars in quotation marks -/

/-- A word in single quotation marks; two of the marks stand for one. -/
def singleWord : List Glyph → List Char × List Glyph
  | [] => ([], [])
  | glyph :: rest =>
    if isBlank glyph.char || glyph.breaks then ([], glyph :: rest)
    else if glyph.char = '\'' then
      match rest with
      | next :: after =>
        if next.char = '\'' then
          let (chars, rest) := singleWord after
          ('\'' :: chars, rest)
        else ([], glyph :: rest)
      | [] => ([], glyph :: rest)
    else
      let (chars, rest) := singleWord rest
      (glyph.char :: chars, rest)

def escaped? : Char → Option Char
  | '0' => some '\x00'
  | 'a' => some '\x07'
  | 'b' => some '\x08'
  | 't' => some '\t'
  | '\t' => some '\t'
  | 'n' => some '\n'
  | 'v' => some '\x0b'
  | 'f' => some '\x0c'
  | 'r' => some '\r'
  | 'e' => some '\x1b'
  | ' ' => some ' '
  | '"' => some '"'
  | '/' => some '/'
  | '\\' => some '\\'
  | 'N' => some (Char.ofNat 0x85)
  | '_' => some (Char.ofNat 0xA0)
  | 'L' => some (Char.ofNat 0x2028)
  | 'P' => some (Char.ofNat 0x2029)
  | _ => none

/-- How many hexadecimal digits follow the letter of an escape. -/
def escapeWidth? : Char → Option Nat
  | 'x' => some 2
  | 'u' => some 4
  | 'U' => some 8
  | _ => none

/-- The number that some hexadecimal digits write, and the text behind them. -/
def hexNumber? : (width value : Nat) → List Glyph → Option (Nat × List Glyph)
  | 0, value, glyphs => some (value, glyphs)
  | _ + 1, _, [] => none
  | width + 1, value, glyph :: rest => do
    let digit ← Text.hexValue? glyph.char
    hexNumber? width (value * 16 + digit) rest

/-- The character with a code, which may not be half of a surrogate pair. -/
def charOfCode? (code : Nat) : Option Char :=
  if code.isValidChar then some (Char.ofNat code) else none

/-- A word in double quotation marks. A backslash at the end of a line takes the line break away;
then the second component is true. -/
def doubleWord? : (fuel : Nat) → List Glyph → Option (List Char × Bool × List Glyph)
  | 0, _ => none
  | _ + 1, [] => some ([], false, [])
  | fuel + 1, glyph :: rest =>
    if isBlank glyph.char || glyph.breaks || glyph.char = '"' then
      some ([], false, glyph :: rest)
    else if glyph.char = '\\' then
      match rest with
      | [] => none
      | letter :: after =>
        if letter.breaks then some ([], true, after)
        else do
          let (char, after) ← match escapeWidth? letter.char with
            | some width => do
              let (code, after) ← hexNumber? width 0 after
              pure (← charOfCode? code, after)
            | none => (escaped? letter.char).map (fun char => (char, after))
          let (chars, broken, rest) ← doubleWord? fuel after
          return (char :: chars, broken, rest)
    else do
      let (chars, broken, rest) ← doubleWord? fuel rest
      return (glyph.char :: chars, broken, rest)

def atOutdent (margin : Nat) : List Glyph → Bool
  | [] => false
  | glyph :: _ => glyph.column < margin

/-- Reads a scalar up to and with the quotation mark that closes it. Its lines have to reach the
margin. -/
def quoted? (double : Bool) (margin : Nat) :
    (fuel : Nat) → List Glyph → Option (List Char × List Glyph)
  | 0, _ => none
  | fuel + 1, glyphs => do
    if atDocumentMarker glyphs || atOutdent margin glyphs then none
    let (word, broken, rest) ←
      if double then doubleWord? (glyphs.length + 1) glyphs
      else
        let (word, rest) := singleWord glyphs
        some (word, false, rest)
    match rest with
    | [] => none
    | glyph :: after =>
      if glyph.char = (if double then '"' else '\'') then return (word, after)
      let (gap, rest) ← Gap.read? margin { broken } rest
      let (more, rest) ← quoted? double margin fuel rest
      return (word ++ gap.text ++ more, rest)

end StackSwap.Yaml
