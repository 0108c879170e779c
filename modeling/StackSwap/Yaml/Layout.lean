import StackSwap.Yaml.Block
import StackSwap.Yaml.Flowing
import StackSwap.Yaml.Token

namespace StackSwap.Yaml

/-- What is known between two tokens: the tokens so far, the last one first; the columns of the open
blocks, the innermost first; the possible key of this level, and those outside of the open flow
collections; and whether a key may start next. -/
structure Layout where
  tokens : List Token := []
  columns : List Nat := []
  keyPlace : Option KeyPlace := none
  outer : List (Option KeyPlace) := []
  keyAllowed : Bool := true
deriving Inhabited

namespace Layout

def inFlow (layout : Layout) : Bool := !layout.outer.isEmpty

/-- The least column at which content of the innermost block can continue. -/
def margin (layout : Layout) : Nat :=
  match layout.columns with
  | column :: _ => column + 1
  | [] => 0

def push (layout : Layout) (token : Token) : Layout :=
  { layout with tokens := token :: layout.tokens }

/-- Puts a token in front of the one with a number. -/
def insertAt (layout : Layout) (number : Nat) (token : Token) : Layout :=
  { layout with tokens := Token.insertAt layout.tokens number token }

/-- Closes the blocks whose column fails a condition, up to the first one that satisfies it. -/
def closeUntil (keep : Nat → Bool) : List Nat → List Token → List Nat × List Token
  | [], tokens => ([], tokens)
  | column :: columns, tokens =>
    if keep column then (column :: columns, tokens)
    else closeUntil keep columns (.blockEnd :: tokens)

/-- Closes the blocks to the right of a column. Indentation does not count in flow collections. -/
def closeBeyond (layout : Layout) (column : Nat) : Layout :=
  if layout.inFlow then layout
  else
    let (columns, tokens) := closeUntil (· ≤ column) layout.columns layout.tokens
    { layout with columns, tokens }

def closeAll (layout : Layout) : Layout :=
  if layout.inFlow then layout
  else
    let (columns, tokens) := closeUntil (fun _ => false) layout.columns layout.tokens
    { layout with columns, tokens }

/-- Opens a block at a column, unless one is open there. The token goes in front of the one with
this number. -/
def openBlock (layout : Layout) (column number : Nat) (token : Token) : Layout :=
  if layout.inFlow || column < layout.margin then layout
  else { layout with columns := column :: layout.columns }.insertAt number token

/-- Gives up the possible key of this level, which must not be a required one. -/
def dropKey? (layout : Layout) : Option Layout :=
  match layout.keyPlace with
  | some place => if place.required then none else some { layout with keyPlace := none }
  | none => some layout

/-- Remembers that a key may start here. -/
def noteKey? (layout : Layout) (start : Glyph) : Option Layout :=
  if layout.keyAllowed then do
    let required := !layout.inFlow && layout.columns.head? = some start.column
    let dropped ← layout.dropKey?
    return { dropped with keyPlace := some ⟨layout.tokens.length, required, start⟩ }
  else some layout

def openFlow? (layout : Layout) (start : Glyph) (token : Token) : Option Layout := do
  let noted ← layout.noteKey? start
  return { noted with keyPlace := none, outer := noted.keyPlace :: noted.outer
                      keyAllowed := true }.push token

/-- Closes a flow collection, or refuses to leave one that is not open to the grammar. -/
def closeFlow? (layout : Layout) (token : Token) : Option Layout := do
  let dropped ← layout.dropKey?
  let closed := match dropped.outer with
    | keyPlace :: outer => { dropped with keyPlace, outer }
    | [] => dropped
  return { closed with keyAllowed := false }.push token

/-- A marker of the start or the end of a document. -/
def marker? (layout : Layout) (token : Token) : Option Layout := do
  let dropped ← layout.closeAll.dropKey?
  return { dropped with keyAllowed := false }.push token

/-- A hyphen before an item of a block sequence. -/
def blockEntry? (layout : Layout) (start : Glyph) : Option Layout := do
  if !layout.inFlow && !layout.keyAllowed then none
  let opened := layout.openBlock start.column layout.tokens.length .blockSequence
  let dropped ← opened.dropKey?
  return { dropped with keyAllowed := true }.push .blockEntry

/-- A question mark before a key. -/
def complexKey? (layout : Layout) (start : Glyph) : Option Layout := do
  if !layout.inFlow && !layout.keyAllowed then none
  let opened := layout.openBlock start.column layout.tokens.length .blockMapping
  let dropped ← opened.dropKey?
  return { dropped with keyAllowed := !layout.inFlow }.push .key

/-- A colon before a value. It makes a key of the possible one that it reaches. -/
def value? (layout : Layout) (colon : Glyph) : Option Layout :=
  match layout.keyPlace with
  | some place =>
    if place.reaches colon then
      let keyed := { layout with keyPlace := none }.insertAt place.number .key
      let opened := keyed.openBlock place.start.column place.number .blockMapping
      some ({ opened with keyAllowed := false }.push .value)
    else if place.required then none
    else plainValue? layout
  | none => plainValue? layout
where
  /-- A colon that stands alone, or behind a key with a question mark. -/
  plainValue? (layout : Layout) : Option Layout := do
    if !layout.inFlow && !layout.keyAllowed then none
    let opened := layout.openBlock colon.column layout.tokens.length .blockMapping
    return { opened with keyAllowed := !layout.inFlow }.push .value

/-- The characters that cannot start a plain scalar. -/
def isIndicator (char : Char) : Bool :=
  isFlowMark char || ['-', '?', ':', '#', '&', '*', '!', '|', '>', '\'', '"', '%', '@', '\x60'].contains char

/-- Whether a plain scalar starts here: with no blank and no indicator, but a hyphen may start it
before a character that is no blank, and so, outside of flow collections, may a question mark or a
colon. -/
def startsPlain (inFlow : Bool) : List Glyph → Bool
  | [] => false
  | glyph :: rest =>
    !isBlank glyph.char && !isIndicator glyph.char || glyph.char = '-' && !endsWord rest ||
      !inFlow && (glyph.char = '?' || glyph.char = ':') && !endsWord rest

def anchorName? (glyphs : List Glyph) : Option (String × List Glyph) :=
  let (name, rest) := takeChars isNameChar glyphs
  let ends := endsWord rest || match rest with
    | next :: _ => ['?', ':', ',', ']', '\x7d', '%', '@', '\x60'].contains next.char
    | [] => true
  if name.isEmpty || !ends then none else some (String.ofList name, rest)

/-- Adds a scalar, or something else that may start a key. -/
def node? (layout : Layout) (start : Glyph) (token : Token) : Option Layout := do
  let noted ← layout.noteKey? start
  return { noted with keyAllowed := false }.push token

/-- Reads the next token, which starts with the first of these characters. -/
def step? (layout : Layout) (glyph : Glyph) (rest : List Glyph) : Option (Layout × List Glyph) :=
  let here := glyph :: rest
  let char := glyph.char
  if glyph.column = 0 && char = '%' then do
    let dropped ← layout.closeAll.dropKey?
    let (directive, rest) ← Directive.read? rest
    return ({ dropped with keyAllowed := false }.push (.directive directive), rest)
  else if atMarker '-' here then (layout.marker? .documentStart).map (·, rest.drop 2)
  else if atMarker '.' here then (layout.marker? .documentEnd).map (·, rest.drop 2)
  else if char = '[' then (layout.openFlow? glyph .flowSequence).map (·, rest)
  else if char = '\x7b' then (layout.openFlow? glyph .flowMapping).map (·, rest)
  else if char = ']' then (layout.closeFlow? .flowSequenceEnd).map (·, rest)
  else if char = '\x7d' then (layout.closeFlow? .flowMappingEnd).map (·, rest)
  else if char = ',' then do
    let dropped ← layout.dropKey?
    return ({ dropped with keyAllowed := true }.push .flowEntry, rest)
  else if char = '-' && endsWord rest then (layout.blockEntry? glyph).map (·, rest)
  else if char = '?' && (layout.inFlow || endsWord rest) then
    (layout.complexKey? glyph).map (·, rest)
  else if char = ':' && (layout.inFlow || endsWord rest) then (layout.value? glyph).map (·, rest)
  else if char = '*' then do
    let (name, rest) ← anchorName? rest
    return (← layout.node? glyph (.alias name), rest)
  else if char = '&' then do
    let (name, rest) ← anchorName? rest
    return (← layout.node? glyph (.anchor name), rest)
  else if char = '!' then do
    let (tag, rest) ← tag? layout.inFlow here
    return (← layout.node? glyph (.tag tag), rest)
  else if (char = '|' || char = '>') && !layout.inFlow then do
    let dropped ← layout.dropKey?
    let (text, rest) ← block? (char = '|') layout.columns.head? rest
    return ({ dropped with keyAllowed := true }.push (.scalar false (String.ofList text)), rest)
  else if char = '\'' || char = '"' then do
    let (text, rest) ← quoted? (char = '"') 0 (rest.length + 1) rest
    return (← layout.node? glyph (.scalar false (String.ofList text)), rest)
  else if startsPlain layout.inFlow here then do
    let added ← layout.noteKey? glyph
    let (text, broken, rest) ← plain? layout.inFlow layout.margin (rest.length + 1) here
    return ({ added with keyAllowed := broken }.push (.scalar true (String.ofList text)), rest)
  else none

/-- The text at the next token. Blanks, comments and empty lines are passed over; outside of flow
collections a tab is refused where a key may start. A key may start on a new line. -/
def toToken (layout : Layout) : (fuel : Nat) → List Glyph → Layout × List Glyph
  | 0, glyphs => (layout, glyphs)
  | _ + 1, [] => (layout, [])
  | fuel + 1, glyph :: rest =>
    if glyph.char = ' ' || glyph.char = '\t' && (layout.inFlow || !layout.keyAllowed) ||
        isOrderMark glyph.char && glyph.index = 0 then
      toToken layout fuel rest
    else if glyph.char = '#' then toToken layout fuel (skipToBreak rest)
    else if glyph.breaks then
      toToken { layout with keyAllowed := layout.keyAllowed || !layout.inFlow } fuel rest
    else (layout, glyph :: rest)

/-- Reads all tokens up to the end of the text, where the blocks are closed. -/
def run? : (fuel : Nat) → Layout → List Glyph → Option (List Token)
  | 0, _, _ => none
  | fuel + 1, layout, glyphs =>
    match layout.toToken (glyphs.length + 1) glyphs with
    | (layout, []) => layout.closeAll.dropKey?.map (·.tokens.reverse)
    | (layout, glyph :: rest) => do
      let (layout, rest) ← (layout.closeBeyond glyph.column).step? glyph rest
      run? fuel layout rest

end Layout

namespace Token

/-- The tokens of a text in the older edition. -/
def ofText? (text : String) : Option (List Token) := do
  let glyphs ← glyphs? .v11 text
  Layout.run? (glyphs.length + 1) {} glyphs

end Token

end StackSwap.Yaml
