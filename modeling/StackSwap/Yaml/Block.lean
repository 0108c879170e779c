import StackSwap.Yaml.Glyph

/-! Block scalars. A folded one joins adjacent lines by a space, unless one of them starts with a
blank, and drops the first of several breaks; the header says what becomes of those at the end. -/

namespace StackSwap.Yaml

/-- What becomes of the line breaks at the end of a block scalar. -/
inductive Chomping where
  | clip
  | strip
  | keep
deriving DecidableEq, Repr, Inhabited

/-- How the lines of a block scalar are read. -/
structure BlockHeader where
  literal : Bool
  chomping : Chomping
  increment : Option Nat
deriving Repr, Inhabited

namespace BlockHeader

/-- A chomping indicator, if one comes next. -/
def chomping? : List Glyph → Option (Chomping × List Glyph)
  | glyph :: rest =>
    if glyph.char = '+' then some (.keep, rest)
    else if glyph.char = '-' then some (.strip, rest)
    else none
  | [] => none

/-- An indentation indicator, if one comes next: a digit. -/
def increment? : List Glyph → Option (Nat × List Glyph)
  | glyph :: rest =>
    if glyph.char.isDigit then some (glyph.char.toNat - '0'.toNat, rest) else none
  | [] => none

/-- The two indicators, in either order. -/
def indicators (glyphs : List Glyph) : Chomping × Option Nat × List Glyph :=
  match chomping? glyphs with
  | some (chomping, rest) =>
    match increment? rest with
    | some (increment, rest) => (chomping, some increment, rest)
    | none => (chomping, none, rest)
  | none =>
    match increment? glyphs with
    | some (increment, rest) =>
      match chomping? rest with
      | some (chomping, rest) => (chomping, some increment, rest)
      | none => (.clip, some increment, rest)
    | none => (.clip, none, glyphs)

/-- Reads a header up to the end of its line. An increment of zero is refused. -/
def read? (literal : Bool) (glyphs : List Glyph) : Option (BlockHeader × List Glyph) := do
  let (chomping, increment, rest) := indicators glyphs
  if increment = some 0 then none
  return (⟨literal, chomping, increment⟩, ← endLine? rest)

end BlockHeader

/-- Reads the indentation of the next line that is not empty, with the line breaks before it. When
no column is given, every space belongs to the indentation, and the first component is the largest
one that is met. A tab inside the indentation is refused. -/
def blockIndent? (column : Option Nat) (most : Nat) (breaks : List Char) :
    List Glyph → Option (Nat × List Char × List Glyph)
  | [] => some (most, breaks, [])
  | glyph :: rest =>
    let inside := match column with
      | some column => decide (glyph.column < column)
      | none => true
    if inside && glyph.char = ' ' then blockIndent? column most breaks rest
    else if inside && glyph.char = '\t' then none
    else if glyph.breaks then
      blockIndent? column (max most glyph.column) (breaks ++ [glyph.char]) rest
    else some (max most glyph.column, breaks, glyph :: rest)

/-- The state between two lines of a block scalar. -/
structure BlockLines where
  text : List Char := []
  lineBreak : List Char := []
  afterBlank : Bool := false
  breaks : List Char
deriving Inhabited

namespace BlockLines

/-- What joins the lines so far to a line that starts with a blank or does not. -/
def joint (lines : BlockLines) (literal blank : Bool) : List Char :=
  if !literal && lines.lineBreak = ['\n'] && !lines.afterBlank && !blank then
    (if lines.breaks.isEmpty then [' '] else lines.breaks)
  else lines.lineBreak ++ lines.breaks

/-- Reads the lines that start at a column. -/
def read? (literal : Bool) (column : Nat) :
    (fuel : Nat) → BlockLines → List Glyph → Option (BlockLines × List Glyph)
  | 0, _, _ => none
  | _ + 1, lines, [] => some (lines, [])
  | fuel + 1, lines, glyph :: rest =>
    if glyph.column = column then do
      let blank := isBlank glyph.char
      let (line, rest) := takeLine (glyph :: rest)
      let (lineBreak, rest) := match rest with
        | next :: rest => ([next.char], rest)
        | [] => ([], [])
      let (_, breaks, rest) ← blockIndent? (some column) 0 [] rest
      read? literal column fuel
        { text := lines.text ++ lines.joint literal blank ++ line
          lineBreak, afterBlank := blank, breaks } rest
    else some (lines, glyph :: rest)

/-- The text of all lines with the line breaks that are kept at the end. -/
def chomped (lines : BlockLines) : Chomping → List Char
  | .strip => lines.text
  | .clip => lines.text ++ lines.lineBreak
  | .keep => lines.text ++ lines.lineBreak ++ lines.breaks

end BlockLines

/-- Reads a block scalar behind its indicator. `parent` is the column of the block that it is in. -/
def block? (literal : Bool) (parent : Option Nat) (glyphs : List Glyph) :
    Option (List Char × List Glyph) := do
  let (header, rest) ← BlockHeader.read? literal glyphs
  let column? := header.increment.map (parent.getD 0 + ·)
  let (most, breaks, rest) ← blockIndent? column? 0 [] rest
  let least := match parent with
    | some column => column + 1
    | none => 1
  let column := column?.getD (max most least)
  let (lines, rest) ← BlockLines.read? literal column (rest.length + 1) { breaks } rest
  return (lines.chomped header.chomping, rest)

end StackSwap.Yaml
