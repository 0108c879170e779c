import StackSwap.Expression.Error
import StackSwap.Expression.Substitution
import StackSwap.Text.Natural
import StackSwap.Text.Pieces

/-! Evaluation of intrinsic functions: objects with the one key `Ref`, or one key that starts with
`Fn::`. What a name means is left to a `Resolver`, so evaluation itself recurses on the value only. -/

namespace StackSwap

/-- The meaning of names in an expression. -/
structure Resolver where
  reference : String → Evaluated Json
  attributeOf : String → String → Evaluated Json
  exportedValue : String → Evaluated Json

namespace Json

/-- The text of a scalar: a string itself, a number or truth value as it is written. -/
def scalarText? : Json → Option String
  | .str text => some text
  | .num number => some number.text
  | .bool value => some (if value then "true" else "false")
  | _ => none

/-- Whether a key makes an object with that key alone an intrinsic function. -/
def isFunctionName (name : String) : Bool :=
  name = "Ref" || "Fn::".toList.isPrefixOf name.toList

/-- Whether the fields are those of an intrinsic function node. -/
def isIntrinsic : Entries Json → Bool
  | [(name, _)] => isFunctionName name
  | _ => false

end Json

namespace Intrinsic

def refuse {α : Type} (fault : ArgumentFault) : Evaluated α := .error (.invalidArguments fault)

/-- A value, or an argument error in its place. -/
def orRefuse {α : Type} (fault : ArgumentFault) : Option α → Evaluated α
  | some value => .ok value
  | none => refuse fault

/-- The resource and attribute that an attribute reference names: an array of both, or one text
with a dot between them. -/
def attributeArguments (arguments : Json) : Evaluated (String × String) :=
  match arguments with
  | .arr [.str logicalId, name] =>
    orRefuse .notLogicalIdAndAttribute (name.scalarText?.map (fun name => (logicalId, name)))
  | .str dotted =>
    orRefuse .notLogicalIdAndAttribute <|
      (Text.splitOnce '.' dotted.toList).map
        (fun (before, after) => (String.ofList before, String.ofList after))
  | _ => refuse .notLogicalIdAndAttribute

/-- `Fn::Join`: the texts of some scalars with a delimiter between them. -/
def join : Json → Evaluated Json
  | .arr [delimiter, .arr values] => do
    let delimiter ← orRefuse .delimiterNotString delimiter.str?
    let texts ← orRefuse .valuesNotStrings (values.mapM Json.scalarText?)
    return .str (delimiter.intercalate texts)
  | _ => refuse .notDelimiterAndValues

/-- `Fn::Split`: the pieces of a text between the occurrences of a delimiter. -/
def split : Json → Evaluated Json
  | .arr [.str delimiter, .str text] => .ok (.arr ((Text.split delimiter text).map Json.str))
  | _ => refuse .notDelimiterAndString

/-- An index: a number, or a string of digits. -/
def index? : Json → Option Nat
  | .num number => number.toNat?
  | .str text => Text.unsigned? text
  | _ => none

/-- `Fn::Select`: the value at an index. -/
def select : Json → Evaluated Json
  | .arr [index, .arr values] => do
    let position ← orRefuse (.badIndex index) (index? index)
    orRefuse (.indexOutOfBounds position values.length) values[position]?
  | _ => refuse .notIndexAndValues

/-- The value of a placeholder: a variable, else an attribute when it has a dot, else a
reference. -/
def placeholderValue (resolver : Resolver) (values : Entries Json) (token : String) :
    Evaluated Json :=
  match values.find? token with
  | some value => .ok value
  | none =>
    match Text.splitOnce '.' token.toList with
    | some (logicalId, name) => resolver.attributeOf (String.ofList logicalId) (String.ofList name)
    | none => resolver.reference token

def segmentText (resolver : Resolver) (values : Entries Json) : Segment → Evaluated String
  | .literal text => .ok text
  | .escaped text => .ok (Segment.unescaped text)
  | .placeholder token => do
    let value ← placeholderValue resolver values token
    orRefuse (.placeholderNotString token) value.scalarText?

/-- `Fn::Sub`: a body with its placeholders filled in from left to right. -/
def substitute (resolver : Resolver) (arguments : Json) : Evaluated Json := do
  let (body, values) ← match arguments with
    | .str body => pure (body, [])
    | .arr [.str body] => pure (body, [])
    | .arr [.str body, .obj values] => pure (body, values)
    | _ => refuse .notBodyAndVariables
  let texts ← (Segment.ofBody body).mapM (segmentText resolver values)
  return .str (String.join texts)

/-- Applies an intrinsic function to its evaluated argument. -/
def apply (resolver : Resolver) (name : String) (argument : Json) : Evaluated Json :=
  match name with
  | "Ref" => do resolver.reference (← orRefuse .notLogicalId argument.str?)
  | "Fn::GetAtt" => do
    let (logicalId, name) ← attributeArguments argument
    resolver.attributeOf logicalId name
  | "Fn::Join" => join argument
  | "Fn::Split" => split argument
  | "Fn::Select" => select argument
  | "Fn::Sub" => substitute resolver argument
  | "Fn::ImportValue" => do resolver.exportedValue (← orRefuse .notExportName argument.str?)
  | name => .error (.unsupportedFunction name)

end Intrinsic

namespace Json

mutual

/-- The value without intrinsic functions that an expression stands for. Fields are evaluated in
key order and items in their order; the first error is the answer. -/
def evaluate (resolver : Resolver) : Json → Evaluated Json
  | .arr items => do return .arr (← evaluateItems resolver items)
  | .obj [(name, argument)] => do
    let value ← evaluate resolver argument
    if isFunctionName name then Intrinsic.apply resolver name value
    else return .obj [(name, value)]
  | .obj fields => do return .obj (← evaluateFields resolver fields)
  | scalar => .ok scalar
termination_by structural value => value

def evaluateItems (resolver : Resolver) : List Json → Evaluated (List Json)
  | [] => .ok []
  | item :: rest => do
    let value ← evaluate resolver item
    return value :: (← evaluateItems resolver rest)
termination_by structural items => items

def evaluateFields (resolver : Resolver) : List (String × Json) → Evaluated (List (String × Json))
  | [] => .ok []
  | (key, field) :: rest => do
    let value ← evaluate resolver field
    return (key, value) :: (← evaluateFields resolver rest)
termination_by structural fields => fields

end

/-- The text of the scalar that an expression stands for. -/
def evaluateText (resolver : Resolver) (expression : Json) : Evaluated String := do
  let value ← expression.evaluate resolver
  Intrinsic.orRefuse (.notString value) value.scalarText?

end Json

end StackSwap
