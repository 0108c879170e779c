import StackSwap.Json
import StackSwap.Text.Pieces

/-! Paths into JSON values, and their text as pointers: every segment follows a slash, and within a
segment a tilde is written `~0` and a slash `~1`. -/

namespace StackSwap.Json

/-- Keys and indices from the outside in. -/
abbrev Path := List String

namespace Path

def escape : List Char → List Char
  | [] => []
  | '~' :: rest => '~' :: '0' :: escape rest
  | '/' :: rest => '~' :: '1' :: escape rest
  | char :: rest => char :: escape rest

/-- Replaces every occurrence of two characters by one. -/
def replacePair (first second replacement : Char) : List Char → List Char
  | [] => []
  | [char] => [char]
  | char :: next :: rest =>
    if char = first ∧ next = second then replacement :: replacePair first second replacement rest
    else char :: replacePair first second replacement (next :: rest)

/-- The key or index that a segment writes: `~1` is a slash, and then `~0` is a tilde. -/
def unescape (segment : List Char) : List Char :=
  replacePair '~' '0' '~' (replacePair '~' '1' '/' segment)

def pointer (path : Path) : List Char :=
  path.flatMap (fun segment => '/' :: escape segment.toList)

/-- The path that a pointer text writes; what stands before the first slash is passed over. -/
def ofPointer (text : List Char) : Path :=
  if text.isEmpty then []
  else ((Text.pieces ['/'] text).drop 1).map (fun segment => String.ofList (unescape segment))

end Path

/-- The item or field under one key or index; an index has no needless zeros. -/
def child? (value : Json) (segment : String) : Option Json :=
  match value with
  | .obj fields => Entries.find? fields segment
  | .arr items =>
    (items.zipIdx.find? (fun (_, index) => toString index == segment)).map Prod.fst
  | _ => none

def at? : Json → Path → Option Json
  | value, [] => some value
  | value, segment :: path => (value.child? segment).bind (fun child => child.at? path)

end StackSwap.Json
