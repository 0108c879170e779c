import StackSwap.Yaml.Block
import StackSwap.Yaml12.Plain

namespace StackSwap.Yaml12

open StackSwap.Yaml

/-- What follows the header of a block scalar: the rest of its line, and whether that line ends with a
line break. An increment of zero is refused. -/
def blockHeader? (literal : Bool) (glyphs : List Glyph) :
    Option (BlockHeader × Bool × List Glyph) := do
  let (chomping, increment, rest) := BlockHeader.indicators glyphs
  if increment = some 0 then none
  let (_, rest) ← passBlanks? rest
  match rest with
  | [] => return (⟨literal, chomping, increment⟩, false, [])
  | glyph :: rest =>
    if glyph.breaks then return (⟨literal, chomping, increment⟩, true, rest) else none

/-- Passes over empty lines and over the spaces that indent the next line, at most up to a column. The
first component is the column that is reached, and the second one holds the line breaks. -/
def blockIndent (column : Nat) : (here : Nat) → (breaks : List Char) → List Glyph →
    Nat × List Char × List Glyph
  | here, breaks, [] => (here, breaks, [])
  | here, breaks, glyph :: rest =>
    if glyph.char = ' ' && glyph.column < column then
      blockIndent column (glyph.column + 1) breaks rest
    else if glyph.breaks then blockIndent column 0 (breaks ++ ['\n']) rest
    else (here, breaks, glyph :: rest)

/-- Passes over empty lines and over all spaces in front of the next one. The first component is the
largest column that is reached. -/
def firstIndent : (most : Nat) → (breaks : List Char) → List Glyph → Nat × List Char × List Glyph
  | most, breaks, [] => (most, breaks, [])
  | most, breaks, glyph :: rest =>
    if glyph.char = ' ' then firstIndent most breaks rest
    else if glyph.breaks then firstIndent (max most glyph.column) (breaks ++ ['\n']) rest
    else (max most glyph.column, breaks, glyph :: rest)

/-- Reads the lines that start at a column. The second component is the column that is reached behind
them. -/
def blockLines? (literal : Bool) (column : Nat) :
    (fuel : Nat) → (here : Nat) → BlockLines → List Glyph → Option (BlockLines × Nat × List Glyph)
  | 0, _, _, _ => none
  | _ + 1, here, lines, [] => some (lines, here, [])
  | fuel + 1, here, lines, glyph :: rest =>
    if glyph.column = column && !(column = 0 && atDocumentMarker (glyph :: rest)) then
      let blank := isBlank glyph.char
      let (line, rest) := takeLine (glyph :: rest)
      let text := lines.text ++ lines.joint literal blank ++ line
      match rest with
      | [] => some ({ text, lineBreak := [], afterBlank := blank, breaks := [] }, column + line.length, [])
      | _ :: rest =>
        let (here, breaks, rest) := blockIndent column 0 [] rest
        blockLines? literal column fuel here
          { text, lineBreak := ['\n'], afterBlank := blank, breaks } rest
    else some (lines, here, glyph :: rest)

def blankBlock (chomping : Chomping) (headerEnds : Bool) (breaks : List Char) : List Char :=
  if !headerEnds then []
  else match chomping with
    | .strip => []
    | .clip => ['\n']
    | .keep => if breaks.isEmpty then ['\n'] else breaks

/-- The line break that the end of the text stands for. -/
def finalBreak (chomping : Chomping) (column here : Nat) (rest : List Glyph) : List Char :=
  if chomping ≠ .strip && rest.isEmpty && max column 1 ≤ here then ['\n'] else []

/-- Reads a block scalar behind its indicator. `parent` is the column of the block that it is in. -/
def block? (literal : Bool) (parent : Option Nat) (glyphs : List Glyph) :
    Option (List Char × List Glyph) := do
  let (header, headerEnds, rest) ← blockHeader? literal glyphs
  if atChar (· = '\t') rest then none
  let least := match parent with
    | some column => column + 1
    | none => 0
  let (column, breaks, rest) := match header.increment with
    | some increment =>
      let column := parent.getD 0 + increment
      let (_, breaks, rest) := blockIndent column 0 [] rest
      (column, breaks, rest)
    | none =>
      let (most, breaks, rest) := firstIndent 0 [] rest
      (max most least, breaks, rest)
  match rest with
  | [] => return (blankBlock header.chomping headerEnds breaks, [])
  | glyph :: after =>
    if least ≤ glyph.column && glyph.column < column then none
    let (lines, here, rest) ←
      blockLines? literal column (after.length + 2) 0 { breaks } (glyph :: after)
    match header.chomping with
    | .strip => return (lines.text, rest)
    | .clip =>
      return (lines.text ++ lines.lineBreak ++ finalBreak .clip column here rest, rest)
    | .keep =>
      return (lines.text ++ lines.lineBreak ++ finalBreak .keep column here rest ++ lines.breaks, rest)

end StackSwap.Yaml12
