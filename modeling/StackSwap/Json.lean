import StackSwap.Entries
import StackSwap.Number.Shortest

/-! JSON values. The entries of an object ascend, and expressions in it are evaluated in that order.
Integers and floats are different numbers, also when their magnitudes agree. -/

namespace StackSwap

/-- A JSON number. Integers lie between `-2 ^ 63` and `2 ^ 64 - 1`. -/
inductive Number where
  | int (value : Int)
  | float (value : Binary64)
deriving DecidableEq, Repr, Inhabited

namespace Number

/-- Whether the two are the same number; an integer is never the same as a float. -/
def same : Number → Number → Bool
  | .int left, .int right => left = right
  | .float left, .float right => left.same right
  | _, _ => false

def text : Number → String
  | .int value => toString value
  | .float value => value.documentText

def toNat? : Number → Option Nat
  | .int value => if 0 ≤ value then some value.toNat else none
  | .float _ => none

end Number

inductive Json where
  | null
  | bool (value : Bool)
  | num (value : Number)
  | str (value : String)
  | arr (items : List Json)
  | obj (fields : List (String × Json))
deriving Repr, Inhabited

namespace Json

mutual

def same : Json → Json → Bool
  | .null, .null => true
  | .bool left, .bool right => left = right
  | .num left, .num right => left.same right
  | .str left, .str right => left = right
  | .arr left, .arr right => sameItems left right
  | .obj left, .obj right => sameFields left right
  | _, _ => false
termination_by structural left => left

/-- Whether two lists hold the same values in order. -/
def sameItems : List Json → List Json → Bool
  | [], [] => true
  | left :: lefts, right :: rights => left.same right && sameItems lefts rights
  | _, _ => false
termination_by structural lefts => lefts

/-- Whether two lists of fields hold the same values under the same keys. -/
def sameFields : List (String × Json) → List (String × Json) → Bool
  | [], [] => true
  | (leftKey, left) :: lefts, (rightKey, right) :: rights =>
    leftKey = rightKey && left.same right && sameFields lefts rights
  | _, _ => false
termination_by structural lefts => lefts

end

instance : BEq Json := ⟨same⟩

def str? : Json → Option String
  | .str value => some value
  | _ => none

def fields? : Json → Option (Entries Json)
  | .obj fields => some fields
  | _ => none

def items? : Json → Option (List Json)
  | .arr items => some items
  | _ => none

/-- The value of an object's field; absent for every other value. -/
def field? (value : Json) (key : String) : Option Json :=
  value.fields?.bind (fun fields => fields.find? key)

def isNull : Json → Bool
  | .null => true
  | _ => false

/-- The object with these pairs; of several pairs with one key the last stays. -/
def ofPairs (pairs : List (String × Json)) : Json := .obj (Entries.ofList pairs)

mutual

/-- The keys of every object inside the value ascend strictly. -/
def WellFormed : Json → Prop
  | .arr items => WellFormedItems items
  | .obj fields => Entries.Sorted fields ∧ WellFormedFields fields
  | _ => True
termination_by structural value => value

def WellFormedItems : List Json → Prop
  | [] => True
  | item :: rest => item.WellFormed ∧ WellFormedItems rest
termination_by structural items => items

def WellFormedFields : List (String × Json) → Prop
  | [] => True
  | (_, value) :: rest => value.WellFormed ∧ WellFormedFields rest
termination_by structural fields => fields

end

end Json

end StackSwap
