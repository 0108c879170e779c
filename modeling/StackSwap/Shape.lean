/-! What a reader of documents expects at each place, so that the same template can be read from
notations that differ in what they call a string or a record. -/

namespace StackSwap

/-- The expectation at one place of a document. -/
inductive Shape where
  /-- any value -/
  | any
  /-- a string -/
  | text
  /-- a value, or nothing -/
  | optional (shape : Shape)
  /-- an object whose keys are free -/
  | table (shape : Shape)
  /-- an object with these fields; others are passed over unread -/
  | record (fields : List (String × Shape))
deriving Inhabited

namespace Shape

/-- The expectation for a named field of a record. -/
def field? (fields : List (String × Shape)) (name : String) : Option Shape :=
  (fields.find? (fun field => field.1 == name)).map Prod.snd

/-- The expectation for a value that is there. -/
def present : Shape → Shape
  | .optional shape => present shape
  | shape => shape

/-- Whether a known field occurs twice among the keys of one record. -/
def repeats (fields : List (String × Shape)) (keys : List String) : Bool :=
  fields.any (fun field => keys.count field.1 > 1)

end Shape

end StackSwap
