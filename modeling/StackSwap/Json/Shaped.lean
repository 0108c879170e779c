import StackSwap.Json.Document
import StackSwap.Shape

/-! Reading a JSON text against a shape. A record may be the array of its fields, and the value of an
unknown field is never looked at. What does not fit is handed on for the decoder to refuse. -/

namespace StackSwap.Json.Document

mutual

/-- The value of a document as far as a shape asks for it. -/
def read? (depth : Nat) : Document → Shape → Option Json
  | .obj fields, shape =>
    match shape.present with
    | .record known =>
      if depth ≤ 1 ∨ Shape.repeats known (fields.filterMap Prod.fst) then none
      else (readRecord? (depth - 1) known fields).map .obj
    | .table inner => if depth ≤ 1 then none else (readTable? (depth - 1) inner fields).map .obj
    | _ => toJson? depth (.obj fields)
  | .arr items, shape =>
    match shape.present with
    | .record known => if depth ≤ 1 then none else (readPositions? (depth - 1) known items).map .arr
    | _ => toJson? depth (.arr items)
  | document, _ => toJson? depth document
termination_by structural document => document

def readRecord? (depth : Nat) (known : List (String × Shape)) :
    List (Option String × Document) → Option (List (String × Json))
  | [] => some []
  | (key, field) :: rest => do
    let key ← key
    match Shape.field? known key with
    | none => readRecord? depth known rest
    | some shape =>
      let value ← read? depth field shape
      return (key, value) :: (← readRecord? depth known rest)
termination_by structural fields => fields

/-- Every entry of an object with free keys, repeated keys included. -/
def readTable? (depth : Nat) (shape : Shape) :
    List (Option String × Document) → Option (List (String × Json))
  | [] => some []
  | (key, field) :: rest => do
    let key ← key
    let value ← read? depth field shape
    return (key, value) :: (← readTable? depth shape rest)
termination_by structural fields => fields

/-- The fields of a record that is written as an array. -/
def readPositions? (depth : Nat) : List (String × Shape) → List Document → Option (List Json)
  | _, [] => some []
  | [], _ :: _ => none
  | (_, shape) :: known, item :: rest => do
    let value ← read? depth item shape
    return value :: (← readPositions? depth known rest)
termination_by structural _ items => items

end

end StackSwap.Json.Document
