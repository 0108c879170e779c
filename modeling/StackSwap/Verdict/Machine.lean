import StackSwap.Verdict

namespace StackSwap

namespace Verdict.Machine

/-- The expression for the ARN of a machine with an explicit name. -/
def arnExpression (name : Json) : Json :=
  .obj [("Fn::Join", .arr [.str ":", .arr [
    .str "arn",
    .obj [("Ref", .str "AWS::Partition")],
    .str "states",
    .obj [("Ref", .str "AWS::Region")],
    .obj [("Ref", .str "AWS::AccountId")],
    .str "stateMachine",
    name]])]

/-- The definition as text: a string itself, any other value as its JSON text. -/
def definitionText : Json → String
  | .str text => text
  | document => document.render

/-- The name in an ARN, which is its seventh part; a shorter text is its own name. -/
def nameInArn (arn : String) : String := ((Text.split ":" arn)[6]?).getD arn

end Verdict.Machine

def Verdict.ofMachine (scope : Scope) (change : ResourceChange) : Evaluated Verdict :=
  ifAllowed change ["DefinitionString"] fun changed => do
    match change.newProperty? "DefinitionString" with
    | none => return block change .nonHotswappableProperties changed
    | some definition =>
      let name := (change.newProperty? "StateMachineName").map Machine.arnExpression
      match ← scope.physicalName change.logicalId name with
      | none => return block change .physicalNameUnknown
      | some arn =>
        let definition := Machine.definitionText (← scope.evaluate definition)
        return .swap {
          logicalId := change.logicalId
          type := change.type
          service := .stepFunctions
          resourceNames := [change.type ++ " '" ++ Machine.nameInArn arn ++ "'"]
          changedProperties := changed
          operations := [.updateMachine { arn, definition }] }

end StackSwap
