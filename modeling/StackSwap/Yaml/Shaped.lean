import StackSwap.Shape
import StackSwap.Yaml.Document
import StackSwap.Yaml.Scalar

/-! Reading a YAML node against a shape. Where a string is expected every scalar is one, a missing
node is read like an empty plain scalar, and tags count only where any value may stand. -/

namespace StackSwap.Yaml.Node

/-- Sequences and mappings may nest this deep. -/
def depthLimit : Nat := 128

/-- The text of a scalar, also behind an alias. -/
def text? : Node → Option String
  | .missing => some ""
  | .scalar _ _ text => some text
  | .alias (some target) => text? target
  | _ => none

/-- Whether a scalar stands for nothing where a value may be absent. A tag other than that of null
makes it something; the tag of null is refused at other texts. -/
def isNothing? (tag : Option NodeTag) (plain : Bool) (text : String) : Option Bool :=
  if !plain then some false
  else match tag with
    | none => some (text.isEmpty || Scalar.isNull text)
    | some (.core "null") => if Scalar.isNull text then some true else none
    | some _ => some false

/-- Whether an optional field with this node is absent. -/
def isAbsent? : Node → Option Bool
  | .missing => some true
  | .scalar tag plain text => isNothing? tag plain text
  | .alias (some target) => isAbsent? target
  | _ => some false

/-- Whether a field of a record is left out. -/
def isLeftOut? (node : Node) : Shape → Option Bool
  | .optional _ => isAbsent? node
  | _ => some false

/-- Whether a sequence or mapping with this tag has a value. -/
def hasValue (tag : Option NodeTag) : Bool := !(tag.any NodeTag.isLocal)

/-- The value of a scalar that is read against a shape. -/
def scalar? (tag : Option NodeTag) (plain : Bool) (text : String) : Shape → Option Json
  | .any => Scalar.value? tag plain text
  | .text => some (.str text)
  | .optional shape => scalar? tag plain text shape
  | .table _ | .record _ => if plain && text.isEmpty then some (.obj []) else none

mutual

/-- The value of a node as far as a shape asks for it. -/
def read? (depth : Nat) : Node → Shape → Option Json
  | .missing, shape => scalar? none true "" shape
  | .scalar tag plain text, shape => scalar? tag plain text shape
  | .sequence tag items, shape =>
    match shape.present with
    | .any => if depth = 0 || !hasValue tag then none else (readItems? (depth - 1) items).map .arr
    | _ => none
  | .mapping tag entries, shape =>
    if depth = 0 then none
    else match shape.present with
      | .any => if hasValue tag then (readTable? (depth - 1) .any entries).map .ofPairs else none
      | .table inner => (readTable? (depth - 1) inner entries).map .obj
      | .record known =>
        if Shape.repeats known (entries.filterMap (fun entry => entry.1.text?)) then none
        else (readRecord? (depth - 1) known entries).map .obj
      | _ => none
  | .alias (some target), shape => read? depth target shape
  | .alias none, _ => none
termination_by structural node => node

def readItems? (depth : Nat) : List Node → Option (List Json)
  | [] => some []
  | item :: rest => do
    let value ← read? depth item .any
    return value :: (← readItems? depth rest)
termination_by structural items => items

/-- Every entry of an object with free keys, repeated keys included. -/
def readTable? (depth : Nat) (shape : Shape) : List (Node × Node) → Option (List (String × Json))
  | [] => some []
  | (key, node) :: rest => do
    let key ← key.text?
    let value ← read? depth node shape
    return (key, value) :: (← readTable? depth shape rest)
termination_by structural entries => entries

def readRecord? (depth : Nat) (known : List (String × Shape)) :
    List (Node × Node) → Option (List (String × Json))
  | [] => some []
  | (key, node) :: rest => do
    let key ← key.text?
    match Shape.field? known key with
    | none => readRecord? depth known rest
    | some shape =>
      if ← isLeftOut? node shape then readRecord? depth known rest
      else
        let value ← read? depth node shape
        return (key, value) :: (← readRecord? depth known rest)
termination_by structural entries => entries

end

/-- The value of a text that holds at most one document. Without one it is read like a
missing node. -/
def parse? (shape : Shape) (text : String) : Option Json := do
  match ← documents? text with
  | [] => read? depthLimit .missing shape
  | [node] => read? depthLimit node shape
  | _ => none

end StackSwap.Yaml.Node
