import StackSwap.Yaml.Tag
import StackSwap.Yaml12.Plain

namespace StackSwap.Yaml12

open StackSwap.Yaml

/-- The characters of an address, escapes apart. -/
def isAddressChar (char : Char) : Bool :=
  isNameChar char ||
    ['#', ';', '/', '?', ':', '@', '&', '=', '+', '$', ',', '.', '!', '~', '*', '\'', '(', ')', '[',
      ']'].contains char

/-- The characters of a tag behind its handle, escapes apart. -/
def isSuffixChar (char : Char) : Bool :=
  isAddressChar char && !isFlowMark char && char ≠ '!'

/-- How many bytes belong to a character, by the first of them. -/
def byteCount? (byte : Nat) : Option Nat :=
  if byte < 0x80 then some 1
  else if byte / 32 = 6 then some 2
  else if byte / 16 = 14 then some 3
  else if byte / 8 = 30 then some 4
  else none

/-- The further escaped bytes of a character. All bytes together are read as one number. -/
def furtherBytes? : (count value : Nat) → List Glyph → Option (Nat × List Glyph)
  | 0, value, glyphs => some (value, glyphs)
  | count + 1, value, glyphs => do
    let (byte, rest) ← escapedByte? glyphs
    if byte / 64 ≠ 2 then none
    furtherBytes? count (value * 256 + byte) rest

/-- The character whose bytes are written as escapes. -/
def escapedChar? (glyphs : List Glyph) : Option (Char × List Glyph) := do
  let (byte, rest) ← escapedByte? glyphs
  let count ← byteCount? byte
  let (code, rest) ← furtherBytes? (count - 1) byte rest
  if code.isValidChar then return (Char.ofNat code, rest) else none

/-- The longest text of escapes and of characters that satisfy a condition. -/
def addressChars? (keep : Char → Bool) : (fuel : Nat) → List Glyph → Option (List Char × List Glyph)
  | 0, _ => none
  | _ + 1, [] => some ([], [])
  | fuel + 1, glyph :: rest =>
    if glyph.char = '%' then do
      let (char, rest) ← escapedChar? (glyph :: rest)
      let (chars, rest) ← addressChars? keep fuel rest
      return (char :: chars, rest)
    else if keep glyph.char then
      (addressChars? keep fuel rest).map (fun (chars, rest) => (glyph.char :: chars, rest))
    else some ([], glyph :: rest)

/-- A tag in angle brackets, behind the exclamation mark. -/
def bracketedTag? (glyphs : List Glyph) : Option (Tag × List Glyph) := do
  let (chars, rest) ← addressChars? isAddressChar (glyphs.length + 1) (glyphs.drop 1)
  match rest with
  | close :: rest => if close.char = '>' then return (⟨"", String.ofList chars⟩, rest) else none
  | [] => none

/-- A tag with a handle; without a complete one the handle is `!`. -/
def shorthandTag? (glyphs : List Glyph) : Option (Tag × List Glyph) := do
  let (head, complete, rest) ← tagHandle? glyphs
  let (chars, rest) ← addressChars? isSuffixChar (rest.length + 1) rest
  if complete then
    if chars.isEmpty then none else return (⟨String.ofList head, String.ofList chars⟩, rest)
  else
    let suffix := head.drop 1 ++ chars
    if suffix.isEmpty then return (⟨"", "!"⟩, rest)
    else return (⟨"!", String.ofList suffix⟩, rest)

def tag? (inFlow : Bool) (glyphs : List Glyph) : Option (Tag × List Glyph) := do
  let (tag, rest) ←
    if atChar (· = '<') (glyphs.drop 1) then bracketedTag? (glyphs.drop 1) else shorthandTag? glyphs
  if endsWord rest || inFlow && atChar isFlowMark rest then return (tag, rest) else none

/-- A handle and the prefix for which it stands. -/
def handle? (glyphs : List Glyph) : Option (Directive × List Glyph) := do
  let (name, complete, rest) ← tagHandle? glyphs
  if !complete && name.length > 1 then none
  let rest := skipBlanks rest
  if !atChar (fun char => isSuffixChar char || char = '!' || char = '%') rest then none
  let (standsFor, rest) ← addressChars? isAddressChar (rest.length + 1) rest
  if endsWord rest then return (.handle (String.ofList name) (String.ofList standsFor), rest) else none

/-- Reads a directive behind the percent sign, up to the end of its line. -/
def directive? (glyphs : List Glyph) : Option (Directive × List Glyph) := do
  let (name, rest) := takeChars isNameChar glyphs
  if name.isEmpty || !endsWord rest then none
  let (directive, rest) ←
    if name = "YAML".toList then Directive.version? (skipBlanks rest)
    else if name = "TAG".toList then handle? (skipBlanks rest)
    else some (.other, skipToBreak rest)
  let (_, rest) ← passBlanks? rest
  if endsLine rest then return (directive, rest) else none

end StackSwap.Yaml12
