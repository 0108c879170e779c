import StackSwap.Yaml.Tag

/-! The tokens of a YAML text. Whether a scalar is a key shows only at the colon behind it, so the
place of a possible key is remembered, and the colon puts the token of a key there. -/

namespace StackSwap.Yaml

inductive Token where
  | directive (directive : Directive)
  | documentStart
  | documentEnd
  | blockSequence
  | blockMapping
  | blockEnd
  | flowSequence
  | flowSequenceEnd
  | flowMapping
  | flowMappingEnd
  | blockEntry
  | flowEntry
  | key
  | value
  | alias (name : String)
  | anchor (name : String)
  | tag (tag : Tag)
  | scalar (plain : Bool) (text : String)
deriving DecidableEq, Repr, Inhabited

/-- Puts a token in front of the one with a number, among tokens of which the last one comes first. -/
def Token.insertAt (tokens : List Token) (number : Nat) (token : Token) : List Token :=
  tokens.insertIdx (tokens.length - number) token

/-- A place where a key may turn out to start: the number of the token there, whether a key has to
start there, and the place of its first character. -/
structure KeyPlace where
  number : Nat
  required : Bool
  start : Glyph
deriving Inhabited

namespace KeyPlace

def reach : Nat := 1024

/-- Whether a colon at some place can still make this a key. -/
def reaches (place : KeyPlace) (colon : Glyph) : Bool :=
  place.start.line = colon.line && colon.index ≤ place.start.index + reach

end KeyPlace

end StackSwap.Yaml
