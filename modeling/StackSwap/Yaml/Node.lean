import StackSwap.Yaml.Token

/-! YAML documents as trees of nodes. An alias keeps the node that it names; inside of that node
itself there is none to keep. -/

namespace StackSwap.Yaml

inductive Node where
  | missing
  | scalar (tag : Option NodeTag) (plain : Bool) (text : String)
  | sequence (tag : Option NodeTag) (items : List Node)
  | mapping (tag : Option NodeTag) (entries : List (Node × Node))
  | alias (target : Option Node)
deriving Inhabited

/-- What is known while a document is read: the edition, the tokens that are left, the anchors of the
document, the last one first, each with its node when that is complete, and the handles of tags. -/
structure Reading where
  edition : Edition
  tokens : List Token
  anchors : List (String × Option Node) := []
  handles : List (String × String) := Tag.defaultHandles
deriving Inhabited

/-- A step of reading a document, which may fail. -/
abbrev Read (α : Type) := StateT Reading Option α

namespace Read

def peek : Read (Option Token) := do return (← get).tokens.head?

def skip : Read Unit := modify (fun reading => { reading with tokens := reading.tokens.drop 1 })

/-- Passes over the next token if it is this one, and tells whether it is. -/
def skipIf (token : Token) : Read Bool := do
  if (← peek) = some token then
    skip
    return true
  else return false

/-- Whether the next token is one of these. -/
def atAny (tokens : List Token) : Read Bool := do
  match ← peek with
  | some token => return tokens.contains token
  | none => return false

def target (name : String) : Read Node := do
  let some node := (← get).anchors.lookup name | failure
  return .alias node

def nodeTag (tag : Tag) : Read NodeTag := do
  let reading ← get
  let some tag := NodeTag.resolve? reading.edition reading.handles tag | failure
  return tag

/-- The anchor and the tag in front of a node, in either order. -/
def properties : Read (Option String × Option NodeTag) := do
  match ← peek with
  | some (.anchor name) =>
    skip
    match ← peek with
    | some (.tag tag) =>
      skip
      return (some name, some (← nodeTag tag))
    | _ => return (some name, none)
  | some (.tag tag) =>
    skip
    match ← peek with
    | some (.anchor name) =>
      skip
      return (some name, some (← nodeTag tag))
    | _ => return (none, some (← nodeTag tag))
  | _ => return (none, none)

/-- Reads a node behind its anchor, which names it from here on, but is incomplete until the end. -/
def anchored (anchor : Option String) (node : Read Node) : Read Node := do
  match anchor with
  | none => node
  | some name =>
    let count := (← get).anchors.length
    modify (fun reading => { reading with anchors := (name, none) :: reading.anchors })
    let node ← node
    modify (fun reading =>
      let index := reading.anchors.length - 1 - count
      { reading with anchors := reading.anchors.set index (name, some node) })
    return node

/-- The tag of a scalar: a lone exclamation mark says nothing in the older edition. -/
def scalarTag (tag : Option NodeTag) : Read (Option NodeTag) := do
  if (← get).edition = .v11 && tag = some .bare then return none
  return tag

/-- Passes over the mark of a key, and tells whether an entry starts here. In the newer edition one
may also start at the mark of its value. -/
def skipKey : Read Bool := do
  if ← skipIf .key then return true
  if (← get).edition = .v12 then atAny [.value] else return false

mutual

/-- Reads a node. Block collections are nodes only where `block` says so. A sequence without its own
indentation may only be the key or the value of a block mapping. -/
def node : (fuel : Nat) → (block indentless : Bool) → Read Node
  | 0, _, _ => failure
  | fuel + 1, block, indentless => do
    if let some (.alias name) ← peek then
      skip
      return ← target name
    let (anchor, tag) ← properties
    match ← peek, block, indentless with
    | some .blockEntry, _, true => anchored anchor (.sequence tag <$> indentlessItems fuel)
    | some (.scalar plain text), _, _ =>
      skip
      let tag ← scalarTag tag
      anchored anchor (pure (.scalar tag plain text))
    | some .flowSequence, _, _ =>
      skip
      anchored anchor (.sequence tag <$> flowItems fuel true)
    | some .flowMapping, _, _ =>
      skip
      anchored anchor (.mapping tag <$> flowEntries fuel true)
    | some .blockSequence, true, _ =>
      skip
      anchored anchor (.sequence tag <$> blockItems fuel)
    | some .blockMapping, true, _ =>
      skip
      anchored anchor (.mapping tag <$> blockEntries fuel)
    | _, _, _ =>
      if anchor.isNone && tag.isNone then failure
      anchored anchor (pure (.scalar tag true ""))

/-- Reads a node, which is missing in front of one of these tokens. -/
def nodeUnless : (fuel : Nat) → (block indentless : Bool) → List Token → Read Node
  | 0, _, _, _ => failure
  | fuel + 1, block, indentless, ends => do
    if ← atAny ends then return .missing
    node fuel block indentless

/-- Reads the items of a block sequence and its end. -/
def blockItems : (fuel : Nat) → Read (List Node)
  | 0 => failure
  | fuel + 1 => do
    if ← skipIf .blockEntry then
      let item ← nodeUnless fuel true false [.blockEntry, .blockEnd]
      return item :: (← blockItems fuel)
    if ← skipIf .blockEnd then return []
    failure

/-- Reads the items of a sequence that ends where no hyphen follows. -/
def indentlessItems : (fuel : Nat) → Read (List Node)
  | 0 => failure
  | fuel + 1 => do
    if ← skipIf .blockEntry then
      let item ← nodeUnless fuel true false [.blockEntry, .key, .value, .blockEnd]
      return item :: (← indentlessItems fuel)
    return []

/-- Reads the entries of a block mapping and its end. -/
def blockEntries : (fuel : Nat) → Read (List (Node × Node))
  | 0 => failure
  | fuel + 1 => do
    if ← skipKey then
      let key ← nodeUnless fuel true true [.key, .value, .blockEnd]
      let value ←
        if ← skipIf .value then nodeUnless fuel true true [.key, .value, .blockEnd]
        else pure .missing
      return (key, value) :: (← blockEntries fuel)
    if ← skipIf .blockEnd then return []
    failure

/-- Reads the items of a flow sequence and its end. An item may be a mapping of one entry without
its own brackets. -/
def flowItems : (fuel : Nat) → (first : Bool) → Read (List Node)
  | 0, _ => failure
  | fuel + 1, first => do
    if ← skipIf .flowSequenceEnd then return []
    if !first then
      if !(← skipIf .flowEntry) then failure
      if ← skipIf .flowSequenceEnd then return []
    let item ←
      if ← skipIf .key then
        let ends := [Token.flowEntry, .flowSequenceEnd]
        let key ←
          if ← atAny (.value :: ends) then
            -- the token behind a missing key is not looked at again
            skip
            pure .missing
          else node fuel false false
        let value ← if ← skipIf .value then nodeUnless fuel false false ends else pure .missing
        pure (.mapping none [(key, value)])
      else node fuel false false
    return item :: (← flowItems fuel false)

/-- Reads the entries of a flow mapping and its end. An entry may lack its value. -/
def flowEntries : (fuel : Nat) → (first : Bool) → Read (List (Node × Node))
  | 0, _ => failure
  | fuel + 1, first => do
    if ← skipIf .flowMappingEnd then return []
    if !first then
      if !(← skipIf .flowEntry) then failure
      if ← skipIf .flowMappingEnd then return []
    let ends := [Token.flowEntry, .flowMappingEnd]
    let entry ←
      if ← skipKey then
        let key ← nodeUnless fuel false false (.value :: ends)
        let value ← if ← skipIf .value then nodeUnless fuel false false ends else pure .missing
        pure (key, value)
      else
        let key ← node fuel false false
        pure (key, .missing)
    return entry :: (← flowEntries fuel false)

end

/-- Reads the content of one document and the markers of its end. -/
def content (fuel : Nat) : Read Node := do
  match ← peek with
  | none | some (.directive _) | some .documentStart | some .documentEnd => return .missing
  | some _ => node fuel true false

/-- Runs a step with enough fuel for these tokens. -/
def runOn? {α : Type} (edition : Edition) (handles : List (String × String)) (tokens : List Token)
    (step : (fuel : Nat) → Read α) : Option (α × List Token) := do
  let (result, reading) ← (step (3 * tokens.length + 3)).run { edition, tokens, handles }
  return (result, reading.tokens)

end Read

end StackSwap.Yaml
