import StackSwap.Json.Delta

/-! A patch from an old value to a new one: every place that an operation changes counts once, with
what both values have there, however many operations change it. -/

namespace StackSwap

/-- An operation of a patch, with the pointer of the place that it changes. -/
inductive PatchOperation where
  | add (pointer : List Char)
  | remove (pointer : List Char)
  | replace (pointer : List Char)
  /-- a move, a copy or a test -/
  | other
deriving DecidableEq, Repr, Inhabited

def PatchOperation.pointer? : PatchOperation → Option (List Char)
  | .add pointer | .remove pointer | .replace pointer => some pointer
  | .other => none

/-- What a value has at a pointer. A text that does not begin with a slash points nowhere, unless it
is empty. -/
def Json.atPointer? (value : Json) : List Char → Option Json
  | [] => some value
  | '/' :: rest => value.at? (.ofPointer ('/' :: rest))
  | _ => none

namespace Change

/-- What two values have at a pointer. -/
def atPointer (old new : Json) (pointer : List Char) : Change :=
  ⟨.ofPointer pointer, old.atPointer? pointer, new.atPointer? pointer⟩

/-- Puts a change at its place in the order of the paths, unless there is one with its path. -/
def insertNew (change : Change) : List Change → List Change
  | [] => [change]
  | first :: rest =>
    if change.path < first.path then change :: first :: rest
    else if change.path = first.path then first :: rest
    else first :: insertNew change rest

/-- The changes from an old value to a new one at the places that a patch changes. -/
def ofPatch (old new : Json) (patch : List PatchOperation) : List Change :=
  (patch.filterMap PatchOperation.pointer?).foldl
    (fun changes pointer => (atPointer old new pointer).insertNew changes) []

end Change

end StackSwap
