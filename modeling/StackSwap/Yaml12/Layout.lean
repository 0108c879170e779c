import StackSwap.Yaml.Flowing
import StackSwap.Yaml.Token
import StackSwap.Yaml12.Block
import StackSwap.Yaml12.Plain
import StackSwap.Yaml12.Tag

/-! From characters to tokens in YAML 1.2. Behind a hyphen, a colon or an opening bracket the level of
a block is raised by one column until content shows whether a block starts there. -/

namespace StackSwap.Yaml12

open StackSwap.Yaml

/-- An open level: its column, and whether a block starts there. -/
structure Level where
  column : Nat
  block : Bool
deriving DecidableEq, Repr, Inhabited

/-- What is known between two tokens: the tokens so far, the last one first; the open levels, the
innermost first; the possible key of this level, and those outside of the open flow collections;
whether a key may start next; where a colon may touch its value; whether a flow mapping or a key of
one has started; and whether a pair without brackets is open in a flow sequence. -/
structure Layout where
  tokens : List Token := []
  levels : List Level := []
  keyPlace : Option KeyPlace := none
  outer : List (Option KeyPlace) := []
  keyAllowed : Bool := true
  adjacent : Option Nat := none
  mappingStarted : Bool := false
  pairOpen : Bool := false
deriving Inhabited

namespace Layout

/-- Flow collections may nest this deep. -/
def flowLimit : Nat := 255

def inFlow (layout : Layout) : Bool := !layout.outer.isEmpty

def column? (layout : Layout) : Option Nat := layout.levels.head?.map Level.column

/-- The least column at which content of the innermost level can continue. -/
def margin (layout : Layout) : Nat := layout.column?.elim 0 (· + 1)

/-- Whether a column is left of the innermost level. -/
def isOutdented (layout : Layout) (column : Nat) : Bool := column + 1 < layout.margin

def push (layout : Layout) (token : Token) : Layout :=
  { layout with tokens := token :: layout.tokens }

/-- Puts a token in front of the one with a number. -/
def insertAt (layout : Layout) (number : Nat) (token : Token) : Layout :=
  { layout with tokens := Token.insertAt layout.tokens number token }

/-! ### Levels -/

/-- Closes the levels up to the first one whose column satisfies a condition. -/
def closeLevels (keep : Nat → Bool) : List Level → List Token → List Level × List Token
  | [], tokens => ([], tokens)
  | level :: levels, tokens =>
    if keep level.column then (level :: levels, tokens)
    else closeLevels keep levels (if level.block then .blockEnd :: tokens else tokens)

/-- Closes the levels to the right of a column. Indentation closes nothing in flow collections. -/
def closeBeyond (layout : Layout) (column : Nat) : Layout :=
  if layout.inFlow then layout
  else
    let (levels, tokens) := closeLevels (· ≤ column) layout.levels layout.tokens
    { layout with levels, tokens }

def closeAll (layout : Layout) : Layout :=
  if layout.inFlow then layout
  else
    let (levels, tokens) := closeLevels (fun _ => false) layout.levels layout.tokens
    { layout with levels, tokens }

/-- Takes back the level that was raised behind a block, if content shows that no block starts. -/
def lower (layout : Layout) : Layout :=
  { layout with levels := layout.levels.dropWhile (fun level => !level.block) }

/-- Raises the level of a block by one column. -/
def raise (layout : Layout) : Layout :=
  match layout.levels with
  | ⟨column, true⟩ :: _ =>
    if layout.inFlow then layout
    else { layout with levels := ⟨column + 1, false⟩ :: layout.levels }
  | _ => layout

/-- Opens a block at a column, unless one is open there. It takes the place of a raised level. The
token goes in front of the one with this number. -/
def openBlock (layout : Layout) (column number : Nat) (token : Token) : Layout :=
  if layout.inFlow then layout
  else
    let levels := match layout.levels with
      | level :: levels => if !level.block && level.column ≤ column then levels else level :: levels
      | [] => []
    let lowered := { layout with levels }
    if lowered.margin ≤ column then
      { lowered with levels := ⟨column, true⟩ :: levels }.insertAt number token
    else lowered

/-! ### Possible keys -/

/-- Gives up the possible key of this level, which must not be a required one. -/
def dropKey? (layout : Layout) : Option Layout :=
  match layout.keyPlace with
  | some place => if place.required then none else some { layout with keyPlace := none }
  | none => some layout

/-- Gives up the possible key if it does not reach this place. In flow collections it always does. -/
def dropStaleKey? (layout : Layout) (here : Glyph) : Option Layout :=
  match layout.keyPlace with
  | some place => if layout.inFlow || place.reaches here then some layout else layout.dropKey?
  | none => some layout

/-- Remembers that a key may start here. It has to where an entry of a block mapping is expected. -/
def noteKey (layout : Layout) (start : Glyph) : Layout :=
  if layout.keyAllowed then
    let required := !layout.inFlow && layout.levels.head? = some ⟨start.column, true⟩
    { layout with keyPlace := some ⟨layout.tokens.length, required, start⟩ }
  else layout

/-- Adds something that may start a key. -/
def node (layout : Layout) (start : Glyph) (token : Token) : Layout :=
  { layout.noteKey start with keyAllowed := false }.push token

/-! ### Indicators -/

/-- The end of a pair without brackets. -/
def closePair (layout : Layout) : Layout :=
  if layout.pairOpen then
    { layout with pairOpen := false, mappingStarted := false }.push .flowMappingEnd
  else layout

def openFlow? (layout : Layout) (start : Glyph) (token : Token) (rest : List Glyph) :
    Option (Layout × List Glyph) := do
  let raised := (layout.noteKey start).raise
  if raised.outer.length ≥ flowLimit then none
  let (_, rest) ← passBlanks? rest
  let started := raised.mappingStarted || token = .flowMapping
  return ({ raised with keyPlace := none, outer := raised.keyPlace :: raised.outer
                        keyAllowed := true, mappingStarted := started }.push token, rest)

/-- Closes a flow collection, or refuses to leave one that is not open to the grammar. Inside of
another one a colon may follow at once. -/
def closeFlow? (layout : Layout) (token : Token) (rest : List Glyph) :
    Option (Layout × List Glyph) := do
  let dropped ← layout.dropKey?
  let closed := match dropped.outer with
    | keyPlace :: outer => { dropped with keyPlace, outer }
    | [] => dropped
  let (_, rest) ← passBlanks? rest
  let adjacent := if closed.inFlow then rest.head?.map Glyph.index else closed.adjacent
  return ({ closed.closePair with keyAllowed := false, adjacent }.push token, rest)

/-- A comma in a flow collection. -/
def flowEntry? (layout : Layout) (rest : List Glyph) : Option (Layout × List Glyph) := do
  let dropped ← layout.dropKey?
  let (_, rest) ← passBlanks? rest
  return ({ dropped.closePair with keyAllowed := true }.push .flowEntry, rest)

/-- A hyphen before an item of a block sequence. Behind a tab no other hyphen may follow. -/
def blockEntry? (layout : Layout) (start : Glyph) (rest : List Glyph) :
    Option (Layout × List Glyph) := do
  if layout.inFlow || !layout.keyAllowed then none
  let opened := layout.openBlock start.column layout.tokens.length .blockSequence
  let (blanks, rest) ← passBlanks? rest
  if blanks.contains '\t' && atChar (· = '-') rest && endsWord (rest.drop 1) then none
  let raised := if !rest.isEmpty && endsLine rest || atChar isFlowMark rest then opened.raise else opened
  let dropped ← raised.dropKey?
  return ({ dropped with keyAllowed := true }.push .blockEntry, rest)

/-- The text behind a question mark: blanks, line breaks and comments are passed over, one of the
first two at least, but no tab. -/
def behindQuestion? (layout : Layout) : (fuel : Nat) → (passed : Bool) → List Glyph →
    Option (Layout × List Glyph)
  | 0, _, _ => none
  | _ + 1, passed, [] => if passed then some (layout, []) else none
  | fuel + 1, passed, glyph :: rest =>
    if glyph.char = ' ' then behindQuestion? layout fuel true rest
    else if glyph.breaks then
      behindQuestion? { layout with keyAllowed := layout.keyAllowed || !layout.inFlow } fuel true rest
    else if glyph.char = '#' then behindQuestion? layout fuel passed (skipToBreak rest)
    else if passed && glyph.char ≠ '\t' then some (layout, glyph :: rest)
    else none

/-- A question mark before a key. -/
def complexKey? (layout : Layout) (start : Glyph) (rest : List Glyph) :
    Option (Layout × List Glyph) := do
  if !layout.inFlow && !layout.keyAllowed then none
  let opened := layout.openBlock start.column layout.tokens.length .blockMapping
  let dropped ← opened.dropKey?
  let marked := { dropped with keyAllowed := !layout.inFlow
                               mappingStarted := layout.mappingStarted || layout.inFlow }
  let (passed, rest) ← marked.behindQuestion? (rest.length + 1) false rest
  return (passed.push .key, rest)

/-- The text behind a colon. If a tab follows and no space, a word or a hyphen may not come next. -/
def behindColon? (glyphs : List Glyph) : Option (List Glyph) :=
  if atChar (· = '\t') glyphs then do
    let (blanks, rest) ← passBlanks? glyphs
    if !blanks.contains ' ' && atChar isNameChar rest then none
    return rest
  else some glyphs

/-- A colon before a value. It makes a key of the possible one. In a flow sequence it opens a pair
without brackets, whose key may not stand on an earlier line. -/
def value? (layout : Layout) (colon : Glyph) : Option Layout := do
  let pairOpen := layout.inFlow && !layout.mappingStarted
  let layout := { layout with pairOpen }
  match layout.keyPlace with
  | some place =>
    if pairOpen && place.start.line < colon.line then none
    let keyed := { layout with keyPlace := none, keyAllowed := false }.insertAt place.number .key
    let opened := if pairOpen then keyed.insertAt place.number .flowMapping else keyed
    return ((opened.openBlock place.start.column place.number .blockMapping).raise).push .value
  | none =>
    if !layout.inFlow && !layout.keyAllowed then none
    let opened := if pairOpen then layout.push .flowMapping else layout
    let raised := (opened.openBlock colon.column opened.tokens.length .blockMapping).raise
    return { raised with keyAllowed := !layout.inFlow }.push .value

/-- A marker of the start or the end of a document. -/
def marker? (layout : Layout) (token : Token) : Option Layout := do
  let dropped ← layout.closeAll.dropKey?
  return { dropped with keyAllowed := false }.push token

/-! ### Tokens -/

/-- The text at the next token. Blanks, comments and empty lines are passed over. A tab left of an
open level may not be in front of content. A key may start on a new line. -/
def toToken? (layout : Layout) : (fuel : Nat) → List Glyph → Option (Layout × List Glyph)
  | 0, _ => none
  | _ + 1, [] => some (layout, [])
  | fuel + 1, glyph :: rest =>
    if glyph.char = '\t' && glyph.leads && layout.isOutdented glyph.column then do
      let (_, rest) ← passBlanks? (glyph :: rest)
      if endsLine rest then toToken? layout fuel rest else none
    else if isBlank glyph.char then toToken? layout fuel rest
    else if glyph.char = '#' then toToken? layout fuel (skipToBreak rest)
    else if glyph.breaks then
      toToken? { layout with keyAllowed := layout.keyAllowed || !layout.inFlow } fuel rest
    else some (layout, glyph :: rest)

/-- Whether a character may stand in the name of an anchor. -/
def isAnchorChar (char : Char) : Bool :=
  !isBlank char && char ≠ '\n' && !isFlowMark char && !isOrderMark char

def anchorName? (glyphs : List Glyph) : Option (String × List Glyph) :=
  let (name, rest) := takeChars isAnchorChar glyphs
  if name.isEmpty then none else some (String.ofList name, rest)

/-- Whether this may follow a scalar in quotation marks that starts on a line: the end of the line, a
colon, and in a flow collection its indicators. -/
def mayFollowQuoted (inFlow : Bool) (line : Nat) : List Glyph → Bool
  | [] => true
  | glyph :: _ =>
    glyph.breaks || glyph.char = ':' && (inFlow || glyph.line = line) ||
      inFlow && [',', ']', '\x7d'].contains glyph.char

/-- A scalar in quotation marks. In a flow collection a colon may follow at once. -/
def quotedScalar? (layout : Layout) (start : Glyph) (rest : List Glyph) :
    Option (Layout × List Glyph) := do
  let (text, rest) ← quoted? (start.char = '"') (layout.margin - 1) (rest.length + 1) rest
  let (_, rest) ← passBlanks? rest
  if !mayFollowQuoted layout.inFlow start.line rest then none
  let added := layout.node start (.scalar false (String.ofList text))
  let (passed, rest) ← added.toToken? (rest.length + 1) rest
  return ({ passed with adjacent := rest.head?.map Glyph.index }, rest)

/-- A plain scalar. A key may start behind it at the start of a line. -/
def plainScalar? (layout : Layout) (start : Glyph) (here : List Glyph) :
    Option (Layout × List Glyph) := do
  let lowered := (layout.noteKey start).lower
  if layout.inFlow && start.column < lowered.margin then none
  let (text, rest) ← plain? layout.inFlow lowered.margin (here.length + 1) here
  let keyAllowed := rest.head?.any Glyph.leads
  return ({ lowered with keyAllowed }.push (.scalar true (String.ofList text)), rest)

def blockScalar? (layout : Layout) (start : Glyph) (rest : List Glyph) :
    Option (Layout × List Glyph) := do
  let lowered := (layout.noteKey start).lower
  let (text, rest) ← block? (start.char = '|') lowered.column? rest
  return ({ lowered with keyAllowed := true }.push (.scalar false (String.ofList text)), rest)

/-- Reads a directive or a document marker, which start in the first column. Behind the marker of an
end the line has to end. -/
def documentToken? (layout : Layout) (glyph : Glyph) (rest : List Glyph) :
    Option (Layout × List Glyph) := do
  if glyph.char = '%' then
    let (directive, rest) ← directive? rest
    return (← layout.marker? (.directive directive), rest)
  else if glyph.char = '-' then return (← layout.marker? .documentStart, rest.drop 2)
  else
    let (_, rest) ← passBlanks? (rest.drop 2)
    if endsLine rest then return (← layout.marker? .documentEnd, rest) else none

/-- Reads the next token, which starts with the first of these characters. -/
def step? (layout : Layout) (glyph : Glyph) (rest : List Glyph) : Option (Layout × List Glyph) :=
  let char := glyph.char
  if glyph.column = 0 && char = '%' || atDocumentMarker (glyph :: rest) then
    layout.documentToken? glyph rest
  else if layout.isOutdented glyph.column then none
  else if char = '[' then layout.openFlow? glyph .flowSequence rest
  else if char = '\x7b' then layout.openFlow? glyph .flowMapping rest
  else if char = ']' then layout.closeFlow? .flowSequenceEnd rest
  else if char = '\x7d' then layout.closeFlow? .flowMappingEnd rest
  else if char = ',' then layout.flowEntry? rest
  else if char = '-' && endsWord rest then layout.blockEntry? glyph rest
  else if char = '?' && endsWord rest then layout.complexKey? glyph rest
  else if char = ':' && (endsWord rest ||
      layout.inFlow && (atChar isFlowMark rest || layout.adjacent = some glyph.index)) then do
    let rest ← behindColon? rest
    return (← layout.value? glyph, rest)
  else if char = '*' then do
    let (name, rest) ← anchorName? rest
    return (layout.node glyph (.alias name), rest)
  else if char = '&' then do
    let (name, rest) ← anchorName? rest
    return (layout.node glyph (.anchor name), rest)
  else if char = '!' then do
    let (tag, rest) ← tag? layout.inFlow (glyph :: rest)
    return (layout.node glyph (.tag tag), rest)
  else if (char = '|' || char = '>') && !layout.inFlow then layout.blockScalar? glyph rest
  else if char = '\'' || char = '"' then layout.quotedScalar? glyph rest
  else if ['%', '@', '\x60'].contains char then none
  else layout.plainScalar? glyph (glyph :: rest)

/-- Reads all tokens up to the end of the text, where the levels are closed. -/
def run? : (fuel : Nat) → Layout → List Glyph → Option (List Token)
  | 0, _, _ => none
  | fuel + 1, layout, glyphs => do
    match ← layout.toToken? (glyphs.length + 1) glyphs with
    | (layout, []) => return (← layout.closeAll.dropKey?).tokens.reverse
    | (layout, glyph :: rest) =>
      let current ← layout.dropStaleKey? glyph
      let (layout, rest) ← (current.closeBeyond glyph.column).step? glyph rest
      run? fuel layout rest

end Layout

def tokens? (text : String) : Option (List Token) := do
  let glyphs ← glyphs? .v12 text
  Layout.run? (glyphs.length + 1) {} glyphs

end StackSwap.Yaml12
