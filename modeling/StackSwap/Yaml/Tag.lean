import StackSwap.Text.Natural
import StackSwap.Text.Pieces
import StackSwap.Yaml.Glyph

/-! Tags of nodes: a handle, which stands for a prefix, and a suffix. In the newer edition the handle
of a core type has to stand for the prefix of these; in the older one prefix and suffix count
together. -/

namespace StackSwap.Yaml

/-- A tag as it is written. A tag in angle brackets has the empty handle. -/
structure Tag where
  handle : String
  suffix : String
deriving DecidableEq, Repr, Inhabited

namespace Tag

def corePrefix : String := "tag:yaml.org,2002:"

/-- What the handles stand for when nothing is declared. -/
def defaultHandles : List (String × String) := [("!", "!"), ("!!", corePrefix)]

end Tag

/-- What a tag says about a node: a core type, or something else. -/
inductive NodeTag where
  | core (type : String)
  | other (text : String)
deriving DecidableEq, Repr, Inhabited

namespace NodeTag

def ofText (text : String) : NodeTag :=
  match Text.dropBeginning? Tag.corePrefix text with
  | some type => .core type
  | none => .other text

/-- The lone exclamation mark. -/
def bare : NodeTag := .other "!"

/-- Whether a tag is local to an application. -/
def isLocal : NodeTag → Bool
  | .core _ => false
  | .other text => "!".toList.isPrefixOf text.toList

/-- What a written tag says, unless its handle is unknown. -/
def resolve? (edition : Edition) (handles : List (String × String)) (tag : Tag) : Option NodeTag := do
  let beginning ← if tag.handle.isEmpty then some "" else handles.lookup tag.handle
  match edition with
  | .v11 => return ofText (beginning ++ tag.suffix)
  | .v12 =>
    if beginning = Tag.corePrefix then return .core tag.suffix
    else return .other (beginning ++ tag.suffix)

end NodeTag

/-- The characters of a tag beside those of names and escapes. -/
def isTagMark (char : Char) : Bool :=
  [';', '/', '?', ':', '@', '&', '=', '+', '$', '.', '!', '~', '*', '\'', '(', ')'].contains char

/-- The byte that an escape writes: a percent sign and two hexadecimal digits. -/
def escapedByte? : List Glyph → Option (Nat × List Glyph)
  | percent :: high :: low :: rest => do
    if percent.char ≠ '%' then none
    let high ← Text.hexValue? high.char
    let low ← Text.hexValue? low.char
    return (high * 16 + low, rest)
  | _ => none

/-- The further bytes of a character. -/
def escapedTail? : (width value : Nat) → List Glyph → Option (Nat × List Glyph)
  | 0, value, glyphs => some (value, glyphs)
  | width + 1, value, glyphs => do
    let (byte, rest) ← escapedByte? glyphs
    if byte / 64 ≠ 2 then none
    escapedTail? width (value * 64 + byte % 64) rest

/-- The character whose bytes are written as escapes. -/
def escapedChar? (glyphs : List Glyph) : Option (Char × List Glyph) := do
  let (byte, rest) ← escapedByte? glyphs
  let (width, value) ←
    if byte < 0x80 then some (0, byte)
    else if byte / 32 = 6 then some (1, byte % 32)
    else if byte / 16 = 14 then some (2, byte % 16)
    else if byte / 8 = 30 then some (3, byte % 8)
    else none
  let (code, rest) ← escapedTail? width value rest
  if code.isValidChar then return (Char.ofNat code, rest) else none

/-- The characters of a tag at the start of a text. Flow indicators belong to it in angle brackets
only. -/
def tagChars? (bracketed : Bool) : (fuel : Nat) → List Glyph → Option (List Char × List Glyph)
  | 0, _ => none
  | _ + 1, [] => some ([], [])
  | fuel + 1, glyph :: rest =>
    if glyph.char = '%' then do
      let (char, rest) ← escapedChar? (glyph :: rest)
      let (chars, rest) ← tagChars? bracketed fuel rest
      return (char :: chars, rest)
    else if isNameChar glyph.char || isTagMark glyph.char ||
        bracketed && [',', '[', ']'].contains glyph.char then
      (tagChars? bracketed fuel rest).map (fun (chars, rest) => (glyph.char :: chars, rest))
    else some ([], glyph :: rest)

/-- The handle at the start of a text, an exclamation mark included: the letters of a name and
perhaps a second exclamation mark, which makes it complete. -/
def tagHandle? : List Glyph → Option (List Char × Bool × List Glyph)
  | glyph :: rest =>
    if glyph.char ≠ '!' then none
    else
      let (name, rest) := takeChars isNameChar rest
      match rest with
      | next :: after =>
        if next.char = '!' then some ('!' :: name ++ ['!'], true, after)
        else some ('!' :: name, false, next :: after)
      | [] => some ('!' :: name, false, [])
  | [] => none

def tag? (inFlow : Bool) (glyphs : List Glyph) : Option (Tag × List Glyph) := do
  let (tag, rest) ← match glyphs with
    | mark :: open_ :: rest =>
      if mark.char = '!' && open_.char = '<' then do
        let (chars, rest) ← tagChars? true (rest.length + 1) rest
        if chars.isEmpty then none
        match rest with
        | close :: rest =>
          if close.char = '>' then some (Tag.mk "" (String.ofList chars), rest) else none
        | [] => none
      else shorthand? glyphs
    | _ => shorthand? glyphs
  match rest with
  | [] => return (tag, [])
  | glyph :: after =>
    if inFlow && glyph.char = ',' || isBlank glyph.char || glyph.breaks then
      return (tag, glyph :: after)
    else none
where
  /-- A tag with a handle; without a complete one the handle is `!`. -/
  shorthand? (glyphs : List Glyph) : Option (Tag × List Glyph) := do
    let (head, complete, rest) ← tagHandle? glyphs
    let (chars, rest) ← tagChars? false (rest.length + 1) rest
    if complete then
      if chars.isEmpty then none
      return (⟨String.ofList head, String.ofList chars⟩, rest)
    else
      let suffix := head.drop 1 ++ chars
      if suffix.isEmpty then return (⟨"", "!"⟩, rest)
      return (⟨"!", String.ofList suffix⟩, rest)

/-- What a line that starts with a percent sign declares. -/
inductive Directive where
  | version (major minor : Nat)
  | handle (name standsFor : String)
  | other
deriving DecidableEq, Repr, Inhabited

namespace Directive

/-- A number of at most nine digits. -/
def number? (glyphs : List Glyph) : Option (Nat × List Glyph) :=
  let (digits, rest) := takeChars Char.isDigit glyphs
  if digits.isEmpty || digits.length > 9 then none else some (Text.natural digits, rest)

def version? (glyphs : List Glyph) : Option (Directive × List Glyph) := do
  let (major, rest) ← number? glyphs
  match rest with
  | point :: rest =>
    if point.char ≠ '.' then none
    let (minor, rest) ← number? rest
    return (.version major minor, rest)
  | [] => none

/-- A handle and the prefix for which it stands. -/
def handle? (glyphs : List Glyph) : Option (Directive × List Glyph) := do
  let (name, complete, rest) ← tagHandle? glyphs
  if !complete && name.length > 1 then none
  if (skipBlanks rest).length = rest.length then none
  let (standsFor, rest) ← tagChars? true (rest.length + 1) (skipBlanks rest)
  if standsFor.isEmpty || !endsWord rest then none
  return (.handle (String.ofList name) (String.ofList standsFor), rest)

/-- Reads a directive behind the percent sign, with the rest of its line. -/
def read? (glyphs : List Glyph) : Option (Directive × List Glyph) := do
  let (name, rest) := takeChars isNameChar glyphs
  if !endsWord rest then none
  let (directive, rest) ←
    if name = "YAML".toList then version? (skipBlanks rest)
    else if name = "TAG".toList then handle? (skipBlanks rest)
    else none
  return (directive, ← endLine? rest)

end Directive

end StackSwap.Yaml
