/-! The characters of a YAML text with their line, column and index, as columns decide what belongs to
what. The two editions differ in what breaks a line, so every character also tells whether it does. -/

namespace StackSwap.Yaml

/-- The editions of YAML that are read: 1.1 and 1.2. -/
inductive Edition where
  | v11
  | v12
deriving DecidableEq, Repr, Inhabited

/-- A character and where it stands: whether it breaks the line, and whether only blanks are in front
of it on its line. -/
structure Glyph where
  char : Char
  line : Nat
  column : Nat
  index : Nat
  breaks : Bool
  leads : Bool
deriving Repr, Inhabited

def isBlank (char : Char) : Bool := char = ' ' || char = '\t'

/-- A line break, after `unifyBreaks`. -/
def isBreak (edition : Edition) (char : Char) : Bool :=
  char = '\n' || edition = .v11 && (char.toNat = 0x2028 || char.toNat = 0x2029)

/-- A letter of a name: of an anchor, a tag handle or a directive. -/
def isNameChar (char : Char) : Bool :=
  char.isAlphanum || char = '_' || char = '-'

/-- An indicator of the flow collections. -/
def isFlowMark (char : Char) : Bool :=
  char = ',' || char = '[' || char = ']' || char = '\x7b' || char = '\x7d'

/-- The mark of the byte order, which may stand at the start of a text. -/
def isOrderMark (char : Char) : Bool := char.toNat = 0xFEFF

/-- The characters that a text may hold. -/
def isAllowed (char : Char) : Bool :=
  let code := char.toNat
  code = 0x09 || code = 0x0A || code = 0x0D || 0x20 ≤ code && code ≤ 0x7E || code = 0x85 ||
    0xA0 ≤ code && code ≤ 0xD7FF || 0xE000 ≤ code && code ≤ 0xFFFD || 0x10000 ≤ code

/-- Reads a carriage return, alone or before a line feed, as a line feed, and in the older edition
also a next-line character. -/
def unifyBreaks (edition : Edition) : List Char → List Char
  | [] => []
  | '\r' :: '\n' :: rest => '\n' :: unifyBreaks edition rest
  | char :: rest =>
    (if char = '\r' || edition = .v11 && char.toNat = 0x85 then '\n' else char) ::
      unifyBreaks edition rest

/-- Places characters that start at a line, a column and an index. -/
def placed (edition : Edition) : (line column index : Nat) → (leads : Bool) → List Char → List Glyph
  | _, _, _, _, [] => []
  | line, column, index, leads, char :: rest =>
    let breaks := isBreak edition char
    ⟨char, line, column, index, breaks, leads⟩ ::
      (if breaks then placed edition (line + 1) 0 (index + 1) true rest
      else placed edition line (column + 1) (index + 1) (leads && isBlank char) rest)

/-- The characters of a text. In the older edition the text starts behind its byte order mark, and
some characters are not allowed; in the newer one it ends in front of a null character. -/
def glyphs? (edition : Edition) (text : String) : Option (List Glyph) :=
  match edition with
  | .v11 =>
    let chars := match text.toList with
      | char :: rest => if isOrderMark char then rest else char :: rest
      | [] => []
    if chars.all isAllowed then some (placed .v11 0 0 0 true (unifyBreaks .v11 chars)) else none
  | .v12 =>
    let chars := text.toList.takeWhile (fun char => char ≠ '\x00')
    some (placed .v12 0 0 0 true (unifyBreaks .v12 chars))

/-- Whether a line break or the end of the text comes next. -/
def endsLine : List Glyph → Bool
  | [] => true
  | glyph :: _ => glyph.breaks

/-- Whether a blank, a line break or the end of the text comes next. -/
def endsWord : List Glyph → Bool
  | [] => true
  | glyph :: _ => isBlank glyph.char || glyph.breaks

/-- Whether a character comes next that satisfies a condition. -/
def atChar (condition : Char → Bool) : List Glyph → Bool
  | [] => false
  | glyph :: _ => condition glyph.char

/-- Whether a document marker comes next: three of the same character at the start of a line. -/
def atMarker (mark : Char) : List Glyph → Bool
  | first :: second :: third :: rest =>
    first.column = 0 && first.char = mark && second.char = mark && third.char = mark && endsWord rest
  | _ => false

/-- Whether a marker of the start or the end of a document comes next. -/
def atDocumentMarker (glyphs : List Glyph) : Bool :=
  atMarker '-' glyphs || atMarker '.' glyphs

def skipBlanks : List Glyph → List Glyph
  | [] => []
  | glyph :: rest => if isBlank glyph.char then skipBlanks rest else glyph :: rest

def skipToBreak : List Glyph → List Glyph
  | [] => []
  | glyph :: rest => if glyph.breaks then glyph :: rest else skipToBreak rest

/-- What follows the end of a line that holds only blanks and perhaps a comment. -/
def endLine? (glyphs : List Glyph) : Option (List Glyph) :=
  let rest := match skipBlanks glyphs with
    | glyph :: rest => if glyph.char = '#' then skipToBreak rest else glyph :: rest
    | [] => []
  match rest with
  | [] => some []
  | glyph :: rest => if glyph.breaks then some rest else none

def takeChars (keep : Char → Bool) : List Glyph → List Char × List Glyph
  | [] => ([], [])
  | glyph :: rest =>
    if keep glyph.char then
      let (chars, rest) := takeChars keep rest
      (glyph.char :: chars, rest)
    else ([], glyph :: rest)

/-- The characters up to the next line break, and the rest from it on. -/
def takeLine : List Glyph → List Char × List Glyph
  | [] => ([], [])
  | glyph :: rest =>
    if glyph.breaks then ([], glyph :: rest)
    else
      let (chars, rest) := takeLine rest
      (glyph.char :: chars, rest)

end StackSwap.Yaml
