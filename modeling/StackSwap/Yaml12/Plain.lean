import StackSwap.Yaml.Glyph

namespace StackSwap.Yaml12

open StackSwap.Yaml

/-- The blanks at the start of a text, and what follows them and perhaps a comment. There has to be a
blank in front of a comment. -/
def passBlanks? (glyphs : List Glyph) : Option (List Char × List Glyph) :=
  let (blanks, rest) := takeChars isBlank glyphs
  if atChar (· = '#') rest then
    if blanks.isEmpty then none else some (blanks, skipToBreak rest)
  else some (blanks, rest)

/-- What stands between two words: the blanks on the line of the first one, the breaks of the lines
that hold something, a comment perhaps, and the breaks of the empty lines. -/
structure Gap where
  spaces : List Char := []
  first : List Char := []
  others : List Char := []
deriving Inhabited

namespace Gap

/-- What a gap contributes to the scalar. -/
def text (gap : Gap) : List Char :=
  if gap.first.isEmpty then gap.spaces
  else if gap.others.isEmpty then [' ']
  else gap.others

/-- Extends a gap up to the next word. A line that has a tab left of the margin may not have content,
but a comment. -/
def read? (margin : Nat) : (fuel : Nat) → Gap → List Glyph → Option (Gap × List Glyph)
  | 0, _, _ => none
  | _ + 1, gap, [] => some (gap, [])
  | fuel + 1, gap, glyph :: rest =>
    if isBlank glyph.char then
      if !glyph.leads then read? margin fuel { gap with spaces := gap.spaces ++ [glyph.char] } rest
      else if glyph.char = '\t' && glyph.column < margin then do
        let (_, rest) ← passBlanks? (glyph :: rest)
        if endsLine rest then read? margin fuel gap rest else none
      else read? margin fuel gap rest
    else if glyph.breaks then
      if glyph.leads then read? margin fuel { gap with others := gap.others ++ ['\n'] } rest
      else read? margin fuel { gap with spaces := [], first := gap.first ++ ['\n'] } rest
    else some (gap, glyph :: rest)

end Gap

/-- A word of a plain scalar. A colon ends it before a blank, and inside flow collections so do their
indicators and a colon before one of them. -/
def plainWord (inFlow : Bool) : List Glyph → List Char × List Glyph
  | [] => ([], [])
  | glyph :: rest =>
    if isBlank glyph.char || glyph.breaks || inFlow && isFlowMark glyph.char ||
        glyph.char = ':' && (endsWord rest || inFlow && atChar isFlowMark rest) then
      ([], glyph :: rest)
    else
      let (chars, rest) := plainWord inFlow rest
      (glyph.char :: chars, rest)

/-- Whether a lone hyphen stands before an indicator of the flow collections. -/
def atLoneHyphen : List Glyph → Bool
  | [] => false
  | glyph :: rest => glyph.char = '-' && atChar isFlowMark rest

/-- Whether a plain scalar ends before this text, which follows one of its gaps. -/
def endsPlain (inFlow : Bool) (margin : Nat) : List Glyph → Bool
  | [] => true
  | glyph :: rest =>
    !inFlow && glyph.column < margin || glyph.char = '#' || atDocumentMarker (glyph :: rest)

/-- Reads a plain scalar whose lines have to reach the margin. -/
def plain? (inFlow : Bool) (margin : Nat) : (fuel : Nat) → List Glyph → Option (List Char × List Glyph)
  | 0, _ => none
  | fuel + 1, glyphs => do
    if inFlow && atLoneHyphen glyphs then none
    let (word, rest) := plainWord inFlow glyphs
    let (gap, after) ← Gap.read? margin (rest.length + 1) {} rest
    if after.length = rest.length || endsPlain inFlow margin after then return (word, after)
    let (more, rest) ← plain? inFlow margin fuel after
    if more.isEmpty then return (word, rest)
    return (word ++ gap.text ++ more, rest)

end StackSwap.Yaml12
